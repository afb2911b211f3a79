import VirtualShell.Text.Utf8

/-!
# Environment variables
-/

namespace VirtualShell

/-- The variables that are set, with their values. -/
abbrev Environment := List (String × String)

namespace Environment

/-- The value of a variable. -/
def value? (environment : Environment) (name : String) : Option String :=
  environment.lookup name

/-- The stretches of bytes that a zero ends. -/
def records : List UInt8 → List (List UInt8)
  | [] => []
  | b :: rest =>
    if b = 0 then [] :: records rest
    else
      match records rest with
      | [] => [[b]]
      | record :: others => (b :: record) :: others

/-- The variable that a record sets: a name, an equals sign and a value. -/
def ofRecord? (record : List UInt8) : Option (String × String) :=
  match record.span (· != 0x3D) with
  | (_, []) => none
  | (name, _ :: value) => some (Text.Utf8.decodeLossy name, Text.Utf8.decodeLossy value)

/-- The variables that a system hands over in one block of bytes. -/
def ofBlock (bytes : List UInt8) : Environment :=
  (records bytes).filterMap ofRecord?

end Environment
end VirtualShell
