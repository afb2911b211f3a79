import VirtualShell.Json.Value

/-!
# Writing JSON

The compact form: no space between the parts, quote, backslash and the characters below the space
escaped, everything else as it is.
-/

namespace VirtualShell
namespace Json

/-- The two last hexadecimal digits of a number. -/
def hexPair (n : Nat) : List Char :=
  [Nat.digitChar (n / 16 % 16), Nat.digitChar (n % 16)]

/-- What stands for one character between the quotes. -/
def escapeChar (c : Char) : List Char :=
  match c with
  | '"' => ['\\', '"']
  | '\\' => ['\\', '\\']
  | '\x08' => ['\\', 'b']
  | '\x0c' => ['\\', 'f']
  | '\n' => ['\\', 'n']
  | '\r' => ['\\', 'r']
  | '\t' => ['\\', 't']
  | _ => if c.toNat < 0x20 then ['\\', 'u', '0', '0'] ++ hexPair c.toNat else [c]

/-- The characters of a text as a JSON string. -/
def writeString (s : String) : List Char :=
  ['"'] ++ s.toList.flatMap escapeChar ++ ['"']

/-- The characters of a whole number. -/
def writeInteger (n : Int) : List Char :=
  match n with
  | .ofNat n => Nat.toDigits 10 n
  | .negSucc n => '-' :: Nat.toDigits 10 (n + 1)

mutual

/-- The characters of a value. -/
def writeChars : Json → List Char
  | .null => "null".toList
  | .boolean true => "true".toList
  | .boolean false => "false".toList
  | .integer n => writeInteger n
  | .real x => (Decimal.exactLayout.render x).toList
  | .text s => writeString s
  | .list items => ['['] ++ writeItems items ++ [']']
  | .object entries => ['\x7b'] ++ writeEntries entries ++ ['\x7d']

/-- The elements of a list, separated by commas. -/
def writeItems : List Json → List Char
  | [] => []
  | [item] => writeChars item
  | item :: rest => writeChars item ++ [','] ++ writeItems rest

/-- The entries of an object, separated by commas. -/
def writeEntries : List (String × Json) → List Char
  | [] => []
  | [entry] => writeString entry.1 ++ [':'] ++ writeChars entry.2
  | entry :: rest => writeString entry.1 ++ [':'] ++ writeChars entry.2 ++ [','] ++ writeEntries rest

end

/-- The compact text of a value. -/
def write (value : Json) : String :=
  String.ofList (writeChars value)

end Json
end VirtualShell
