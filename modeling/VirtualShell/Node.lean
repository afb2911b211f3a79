import VirtualShell.Path

/-!
# Nodes

A node is what a store keeps under a path: a directory with the names of its children in the order
they were added, or a file with its content and the times it was created and last written.
-/

namespace VirtualShell

/-- Milliseconds since the start of 1970. -/
abbrev Timestamp := Int64

/-- A directory or a file. Each knows its own path. -/
inductive Node where
  | directory (path name : String) (children : List String)
  | file (path content : String) (created modified : Timestamp)
  deriving DecidableEq, Repr

/-- What a listing tells about an entry besides its name. -/
inductive NodeKind where
  | directory
  | file
  deriving DecidableEq, Repr

/-- The word for a kind. -/
def NodeKind.word : NodeKind → String
  | .directory => "directory"
  | .file => "file"

/-- An entry of a directory listing. -/
structure Entry where
  name : String
  kind : NodeKind
  deriving DecidableEq, Repr

namespace Node

/-- A directory without children. -/
def emptyDirectory (path name : String) : Node :=
  .directory path name []

/-- The path a node is stored under. -/
def path : Node → String
  | .directory path _ _ => path
  | .file path _ _ _ => path

/-- Whether a node is a directory or a file. -/
def kind : Node → NodeKind
  | .directory _ _ _ => .directory
  | .file _ _ _ _ => .file

end Node
end VirtualShell
