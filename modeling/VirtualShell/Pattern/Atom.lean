import VirtualShell.Pattern.Mode

/-!
# Single characters of a pattern

A character stands for itself unless it is special, and a backslash turns one kind into the other.
There are no tables of letters here, so what would need one cannot be matched: classes of
characters of Unicode, and letters of Unicode in either case.
-/

namespace VirtualShell
namespace Pattern

/-- What one character, or one escape, stands for. -/
inductive Atom where
  /-- Itself. `byte` tells that it was written as a byte of two hexadecimal digits. -/
  | literal (c : Char) (byte : Bool)
  /-- Every character. -/
  | anything
  /-- Digits, blanks, word characters, or what is none of them. -/
  | kind (negated : Bool)
  /-- A place and not a character. `ofWord` tells that it is where a word starts or ends. -/
  | place (ofWord : Bool)
  deriving DecidableEq, Repr

/-- Whether an atom can be matched outside brackets. -/
def Atom.isAllowed (mode : Mode) : Atom → Bool
  | .literal c byte => if mode.unicode then !mode.caseless else !byte || c.toNat < 0x80
  | .anything => mode.unicode
  | .kind negated => !mode.unicode && !negated
  | .place _ => true

/-- Whether an atom can be matched inside brackets. Bytes are ASCII there. -/
def Atom.isAllowedInside (mode : Mode) : Atom → Bool
  | .literal c _ => if mode.unicode then !mode.caseless else c.toNat < 0x80
  | .kind negated => !mode.unicode && !negated
  | .anything | .place _ => false

/-- Whether an atom is a place that only the letters of Unicode tell. -/
def Atom.needsWords (mode : Mode) (atom : Atom) : Bool :=
  mode.unicode && atom == .place true

/-! ### Escapes -/

/-- Whether a character loses its meaning after a backslash, if it had any. -/
def isEscapable (c : Char) : Bool :=
  c.toNat < 0x80 && !c.isAlphanum && c != '<' && c != '>'

/-- Reads a code point of `count` more hexadecimal digits. -/
def readHex (mode : Mode) (code : Nat) : Nat → List Char → Option (Char × List Char)
  | 0, cs => if h : code.isValidChar then some (Char.ofNatAux code h, cs) else none
  | count + 1, cs =>
    match mode.skip cs with
    | [] => none
    | c :: rest => do readHex mode (16 * code + (← Text.hexDigit? c)) count rest

/-- Reads an escape after its backslash. -/
def readEscape (mode : Mode) : List Char → Option (Atom × List Char)
  | [] => none
  | c :: rest =>
    match c with
    | 'x' => (readHex mode 0 2 rest).map fun (c, rest) => (.literal c true, rest)
    | 'u' => (readHex mode 0 4 rest).map fun (c, rest) => (.literal c false, rest)
    | 'U' => (readHex mode 0 8 rest).map fun (c, rest) => (.literal c false, rest)
    | 'd' | 's' | 'w' => some (.kind false, rest)
    | 'D' | 'S' | 'W' => some (.kind true, rest)
    | 'a' => some (.literal '\x07' false, rest)
    | 'f' => some (.literal '\x0c' false, rest)
    | 't' => some (.literal '\t' false, rest)
    | 'n' => some (.literal '\n' false, rest)
    | 'r' => some (.literal '\r' false, rest)
    | 'v' => some (.literal '\x0b' false, rest)
    | 'A' | 'z' => some (.place false, rest)
    | 'b' | 'B' | '<' | '>' => some (.place true, rest)
    | c => if isEscapable c then some (.literal c false, rest) else none

end Pattern
end VirtualShell
