/-!
# Totals
-/

namespace VirtualShell

/-- What some numbers come to together. The zero of the sum is named, as there may be others in
scope where a sum is spoken of. -/
abbrev total (ns : List Nat) : Nat :=
  @List.sum Nat _ Zero.ofOfNat0 ns

end VirtualShell
