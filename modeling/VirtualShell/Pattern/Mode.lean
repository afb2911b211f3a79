import VirtualShell.Text.Class

/-!
# Modes of a pattern

Flags inside a pattern change how what follows is read: whether letters match in either case,
whether characters are those of Unicode or bytes, and whether space and comments are skipped.
-/

namespace VirtualShell
namespace Pattern

/-- How a pattern is read from some place on. -/
structure Mode where
  /-- Letters match in either case. -/
  caseless : Bool := false
  /-- Characters are those of Unicode, and not bytes. -/
  unicode : Bool := true
  /-- Blanks and comments do not count. -/
  spaced : Bool := false
  deriving DecidableEq, Repr

/-- The flags that there are. -/
def isFlag (c : Char) : Bool :=
  ['i', 'm', 's', 'U', 'u', 'R', 'x'].contains c

/-- The mode with flags on or off. Those after a hyphen are off. Flags that only change what a
pattern matches make no difference here. -/
def Mode.set (mode : Mode) (on : Bool) : List Char → Mode
  | [] => mode
  | c :: rest =>
    if c = '-' then mode.set false rest
    else if c = 'i' then Mode.set { mode with caseless := on } on rest
    else if c = 'u' then Mode.set { mode with unicode := on } on rest
    else if c = 'x' then Mode.set { mode with spaced := on } on rest
    else mode.set on rest

/-- Whether flags are well written: each one is known, none stands twice, and neither does the
hyphen, which some flag must follow. -/
def areFlags (flags : List Char) : Bool :=
  flags.all (fun c => c == '-' || isFlag c) && decide flags.Nodup && flags.getLast? != some '-'

/-- The text without blanks and comments at its start. A comment goes on to the end of its line. -/
def skipSpace (inComment : Bool) : List Char → List Char
  | [] => []
  | c :: rest =>
    if inComment then skipSpace (c != '\n') rest
    else if Text.isBlank c then skipSpace false rest
    else if c = '#' then skipSpace true rest
    else c :: rest

/-- The text from where it counts. -/
def Mode.skip (mode : Mode) (cs : List Char) : List Char :=
  if mode.spaced then skipSpace false cs else cs

/-- The next character, which is only looked at: past blanks and the sign of one comment. -/
def Mode.peek (mode : Mode) (cs : List Char) : Option Char :=
  if mode.spaced then
    match cs.dropWhile Text.isBlank with
    | '#' :: rest => (rest.dropWhile Text.isBlank).head?
    | rest => rest.head?
  else cs.head?

end Pattern
end VirtualShell
