import VirtualShell.Text.Class

/-!
# Blanks, comments and quoted texts in TOML

There are four kinds of quoted texts: with double quotes, where a backslash escapes, and with
apostrophes, where nothing does, each on one line or, tripled, over several. In texts over several
lines a line ends with a line feed whichever way it was written.
-/

namespace VirtualShell
namespace Toml

/-- Space and tab. -/
def isBlank (c : Char) : Bool :=
  c == ' ' || c == '\t'

/-- The text without blanks at its start. -/
def skipBlanks (cs : List Char) : List Char :=
  cs.dropWhile isBlank

/-- What follows the end of a line, if the text starts with one. -/
def newline? : List Char → Option (List Char)
  | '\n' :: rest => some rest
  | '\r' :: '\n' :: rest => some rest
  | _ => none

/-- Tab and all that is not a control character of ASCII. -/
def isPlain (c : Char) : Bool :=
  c == '\t' || (0x20 ≤ c.toNat && c.toNat != 0x7F)

/-- What follows a comment, or the text itself if it does not start with one. -/
def skipComment : List Char → List Char
  | '#' :: rest => rest.dropWhile isPlain
  | cs => cs

/-- What follows the end of a line, with blanks and a comment before it. The end of the text ends
a line too. -/
def lineEnd? (cs : List Char) : Option (List Char) :=
  match skipComment (skipBlanks cs) with
  | [] => some []
  | rest => newline? rest

/-- The text without blanks, comments and ends of lines at its start. A comment must end with its
line. -/
def skipLines (inComment : Bool) : List Char → Option (List Char)
  | [] => if inComment then none else some []
  | '\n' :: rest => skipLines false rest
  | '\r' :: rest =>
    match rest with
    | '\n' :: rest => skipLines false rest
    | _ => none
  | c :: rest =>
    if inComment then
      if isPlain c then skipLines true rest else none
    else if isBlank c then skipLines false rest
    else if c = '#' then skipLines true rest
    else some (c :: rest)

/-! ### Escapes -/

/-- What a letter after a backslash stands for. -/
def escaped? : Char → Option Char
  | 'b' => some '\x08'
  | 'f' => some '\x0c'
  | 'n' => some '\n'
  | 'r' => some '\r'
  | 't' => some '\t'
  | '"' => some '"'
  | '\\' => some '\\'
  | _ => none

/-- The character with a code point in hexadecimal digits. -/
def scalarOfHex? (cs : List Char) : Option Char := do
  let digits ← cs.mapM Text.hexDigit?
  let code := digits.foldl (fun code digit => 16 * code + digit) 0
  if h : code.isValidChar then some (Char.ofNatAux code h) else none

/-- How many characters after a backslash make up an escape. -/
def escapeSize : Char → Nat
  | 'u' => 5
  | 'U' => 9
  | _ => 1

/-- The character that an escape stands for, given the characters after the backslash. -/
def escape? : List Char → Option Char
  | 'u' :: digits => if digits.length = 4 then scalarOfHex? digits else none
  | 'U' :: digits => if digits.length = 8 then scalarOfHex? digits else none
  | [c] => escaped? c
  | _ => none

/-! ### Quoted texts -/

/-- Puts a character in front of a text that was read. -/
def prepend (c : Char) (read : List Char × List Char) : List Char × List Char :=
  (c :: read.1, read.2)

/-- Reads on to a closing double quote. The last `skipped` characters of an escape that was read
are passed over. -/
def readBasic (skipped : Nat) : List Char → Option (List Char × List Char)
  | [] => none
  | c :: rest =>
    match skipped with
    | skipped + 1 => readBasic skipped rest
    | 0 =>
      if c = '"' then some ([], rest)
      else if c = '\\' then do
        let size := escapeSize (rest.headD ' ')
        let stood ← escape? (rest.take size)
        return prepend stood (← readBasic size rest)
      else if isPlain c then (readBasic 0 rest).map (prepend c)
      else none

/-- Reads on to a closing apostrophe. -/
def readLiteral : List Char → Option (List Char × List Char)
  | [] => none
  | c :: rest =>
    if c = '\'' then some ([], rest)
    else if isPlain c then (readLiteral rest).map (prepend c)
    else none

/-- The quotes before three closing ones, at most two, and what follows, if the text starts with
three. -/
def closing? (quote : Char) : List Char → Option (List Char × List Char)
  | a :: b :: c :: rest =>
    if a = quote ∧ b = quote ∧ c = quote then
      match rest with
      | d :: e :: after =>
        if d = quote ∧ e = quote then some ([d, e], after)
        else if d = quote then some ([d], e :: after)
        else some ([], rest)
      | [d] => if d = quote then some ([d], []) else some ([], rest)
      | [] => some ([], [])
    else none
  | _ => none

/-- Whether the rest of a line holds nothing but blanks. -/
def endsLine (cs : List Char) : Bool :=
  (newline? (skipBlanks cs)).isSome

/-- How far a text over several lines was read. -/
inductive LinesMode where
  | reading
  /-- After a backslash at the end of a line: blanks and ends of lines do not count. -/
  | joining
  /-- Inside an escape that was read, of which some characters are left. -/
  | passing (left : Nat)

/-- Reads on to three closing double quotes. -/
def readBasicLines (mode : LinesMode) : List Char → Option (List Char × List Char)
  | [] => none
  | c :: rest =>
    match mode with
    | .passing (left + 1) => readBasicLines (.passing left) rest
    | mode =>
      let joining := match mode with
        | .joining => true
        | _ => false
      if joining && (isBlank c || (newline? (c :: rest)).isSome) then
        readBasicLines .joining rest
      else
        match closing? '"' (c :: rest) with
        | some closed => some closed
        | none =>
          if c = '\\' then
            if endsLine rest then readBasicLines .joining rest
            else do
              let size := escapeSize (rest.headD ' ')
              let stood ← escape? (rest.take size)
              return prepend stood (← readBasicLines (.passing size) rest)
          else if c = '\n' then (readBasicLines .reading rest).map (prepend '\n')
          else if (newline? (c :: rest)).isSome then readBasicLines .reading rest
          else if isPlain c then (readBasicLines .reading rest).map (prepend c)
          else none

/-- Reads on to three closing apostrophes. -/
def readLiteralLines : List Char → Option (List Char × List Char)
  | [] => none
  | c :: rest =>
    match closing? '\'' (c :: rest) with
    | some closed => some closed
    | none =>
      if c = '\n' then (readLiteralLines rest).map (prepend '\n')
      else if (newline? (c :: rest)).isSome then readLiteralLines rest
      else if isPlain c then (readLiteralLines rest).map (prepend c)
      else none

/-- The text without one end of a line at its start. -/
def skipNewline (cs : List Char) : List Char :=
  (newline? cs).getD cs

/-- The text that was read, with what follows. -/
def toText (read : List Char × List Char) : String × List Char :=
  (String.ofList read.1, read.2)

/-- Reads a quoted text on one line. -/
def readLineText : List Char → Option (String × List Char)
  | '"' :: rest => (readBasic 0 rest).map toText
  | '\'' :: rest => (readLiteral rest).map toText
  | _ => none

/-- Reads a quoted text of any kind. -/
def readText : List Char → Option (String × List Char)
  | '"' :: '"' :: '"' :: rest => (readBasicLines .reading (skipNewline rest)).map toText
  | '\'' :: '\'' :: '\'' :: rest => (readLiteralLines (skipNewline rest)).map toText
  | cs => readLineText cs

end Toml
end VirtualShell
