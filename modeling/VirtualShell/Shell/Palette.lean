/-!
# Colours

A palette paints texts by their role, or leaves all of them as they are.
-/

namespace VirtualShell

/-- The roles of painted texts. -/
inductive Role where
  | error
  | directory
  | file
  | heading
  | accent
  deriving DecidableEq, Repr

/-- The terminal's number for the colour of a role: red, blue, green, yellow and cyan. -/
def Role.colour : Role → String
  | .error => "31"
  | .directory => "34"
  | .file => "32"
  | .heading => "33"
  | .accent => "36"

/-- Whether texts are painted. -/
structure Palette where
  color : Bool
  deriving DecidableEq, Repr

/-- The text in the colour of a role, with the terminal's own colour after it. -/
def Palette.paint (palette : Palette) (role : Role) (s : String) : String :=
  if palette.color then "\x1b[" ++ role.colour ++ "m" ++ s ++ "\x1b[39m" else s

end VirtualShell
