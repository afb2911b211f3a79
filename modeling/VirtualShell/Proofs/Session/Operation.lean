import VirtualShell.Seed

/-!
# The operations of a session

Everything that can be asked of a session, as data, with what it answers.  A request that fails says
so in its answer; a storage error is no answer at all.
-/

namespace VirtualShell

/-- What a session is asked for. -/
inductive Operation where
  | resolve (raw : String)
  | pathExists (raw : String)
  | listDirectory (raw : String)
  | changeDirectory (raw : String)
  | fileText (raw : String)
  | createFile (raw content : String)
  | touch (raw : String)
  | createDirectory (raw : String)
  | delete (raw : String)
  | usage
  deriving DecidableEq, Repr

/-- What a session answers. -/
inductive Reply where
  | path (path : Option String)
  | truth (b : Bool)
  | listing (entries : Option (List Entry))
  | content (text : Option String)
  | usage (usage : Usage)
  | started (seeded : Bool)
  deriving DecidableEq, Repr

/-- Whether an answer says that nothing came of it. -/
def Reply.failed : Reply → Bool
  | .path answer => answer.isNone
  | .truth b => !b
  | .listing answer => answer.isNone
  | .content answer => answer.isNone
  | .usage _ => false
  | .started _ => false

namespace Operation

/-- Does what is asked. -/
def perform (options : SessionOptions) : Operation → Action Reply
  | .resolve raw => return .path (← Session.resolve raw)
  | .pathExists raw => return .truth (← Session.pathExists raw)
  | .listDirectory raw => return .listing (← Session.listDirectory raw)
  | .changeDirectory raw => return .truth (← Session.changeDirectory raw)
  | .fileText raw => return .content (← Session.fileText raw)
  | .createFile raw content => return .truth (← Session.createFile options raw content)
  | .touch raw => return .truth (← Session.touch options raw)
  | .createDirectory raw => return .truth (← Session.createDirectory options raw)
  | .delete raw => return .truth (← Session.delete options raw)
  | .usage => return .usage (← Session.usage options)

/-- Whether an operation can change the store. -/
def writes : Operation → Bool
  | .createFile _ _ | .touch _ | .createDirectory _ | .delete _ => true
  | _ => false

end Operation

/-- A session starts, on the first tree or on a bare root if the store is empty, or is asked for
something. -/
inductive Request where
  | start (seeded : Bool)
  | operate (operation : Operation)
  deriving DecidableEq, Repr

/-- Does what is requested. -/
def Request.perform (options : SessionOptions) : Request → Action Reply
  | .start true => return .started (← Seed.mount options)
  | .start false => do
    Session.mount options
    return .started false
  | .operate operation => operation.perform options

end VirtualShell
