import VirtualShell.Session

/-!
# The first tree

An empty store is given a small tree of directories and files, in one commit, so that it is there
completely or not at all.
-/

namespace VirtualShell
namespace Seed

/-- The directories below the root, each after the one it lies in. -/
def directories : List String :=
  ["bin", "etc", "home", "tmp", "usr", "var", "home/user", "home/user/Documents",
    "home/user/Downloads"]

/-- The files below the root, with their contents. -/
def files : List (String × String) :=
  [("etc/motd", "Welcome to Termi-Web!"),
    ("home/user/.bashrc",
      "# Termi-Web bashrc\nexport PS1=\"\\[\\e[32m\\]\\u@\\h\\[\\e[0m\\]:\\[\\e[34m\\]\\w\\[\\e[0m\\]$ \""),
    ("home/user/README.md",
      "# Welcome to Termi-Web\n\nThis is a web-based Termux emulator.\n\n## Features:\n" ++
      "- Full terminal emulation\n- Virtual filesystem\n- Package management\n" ++
      "- Programming languages\n\nEnjoy!")]

/-- Adds a name to the first directory with a path, if there is one. -/
def addChild (parent name : String) : List Node → Option (List Node)
  | [] => none
  | .directory path own children :: rest =>
    if path = parent then some (.directory path own (children ++ [name]) :: rest)
    else (addChild parent name rest).map (.directory path own children :: ·)
  | node :: rest => (addChild parent name rest).map (node :: ·)

/-- The nodes with one more at the end, listed in its directory. A node without a directory is left
out. -/
def attach (nodes : List Node) (node : Node) : List Node :=
  match Path.parent? node.path with
  | none => nodes
  | some parent =>
    match addChild parent (Path.name node.path) nodes with
    | none => nodes
    | some nodes => nodes ++ [node]

/-- All nodes of the first tree, the root first. -/
def tree (now : Timestamp) : List Node :=
  let root := [Node.emptyDirectory Path.root Path.root]
  let withDirectories := directories.foldl (fun nodes directory =>
    let path := Path.join Path.root directory
    attach nodes (.emptyDirectory path (Path.name path))) root
  files.foldl (fun nodes file =>
    attach nodes (.file (Path.join Path.root file.1) file.2 now now)) withDirectories

/-- Starts on a store, which gets the first tree if it has no root. Tells whether it did. -/
def mount (options : SessionOptions) : Action Bool := do
  let fresh := (← Action.get Path.root).isNone
  if fresh then
    let nodes := tree (← Action.clock)
    Action.commit (nodes.map .put)
    Session.flushIfWanted options
    Action.log (Log.Source.seed.event .info "Seeded default filesystem"
      [("records", .count nodes.length)])
  Session.mount options
  return fresh

end Seed
end VirtualShell
