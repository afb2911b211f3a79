import VirtualShell.Decimal.Numeral
import VirtualShell.Text.Lowercase

/-!
# Trees of settings

What the layers of a configuration say is gathered in one tree. Keys do not tell capital letters
from small ones. A table that comes upon a table is merged into it, entry by entry; anything else
replaces what was there.
-/

namespace VirtualShell
namespace Settings

/-- A value without parts. -/
inductive Scalar where
  | nothing
  | boolean (b : Bool)
  | integer (n : Int)
  | real (x : Decimal.Binary64)
  | text (s : String)
  deriving DecidableEq, Repr

/-- What was said about a setting or a group of them, and where. Tables and lists that came about
on the way to something below them were said nowhere. -/
inductive Tree where
  | leaf (value : Scalar) (origin : Option String)
  | list (items : List Tree) (origin : Option String)
  | table (entries : List (String × Tree)) (origin : Option String)

namespace Tree

/-- A table without entries that was said nowhere. -/
def emptyTable : Tree :=
  .table [] none

/-- The entries of a table, and none of anything else. -/
def entries : Tree → List (String × Tree)
  | .table entries _ => entries
  | _ => []

/-- The items of a list, and none of anything else. -/
def items : Tree → List Tree
  | .list items _ => items
  | _ => []

/-- Where a tree was said. -/
def origin : Tree → Option String
  | .leaf _ origin => origin
  | .list _ origin => origin
  | .table _ origin => origin

/-- Where a table was said, and nowhere for anything else. -/
def tableOrigin : Tree → Option String
  | .table _ origin => origin
  | _ => none

/-- Where a list was said, and nowhere for anything else. -/
def listOrigin : Tree → Option String
  | .list _ origin => origin
  | _ => none

/-- Changes the value of a key, or adds it at the end. -/
def alterEntry (key : String) (change : Option Tree → Tree) :
    List (String × Tree) → List (String × Tree)
  | [] => [(key, change none)]
  | entry :: rest =>
    if entry.1 = key then (key, change (some entry.2)) :: rest
    else entry :: alterEntry key change rest

/-- Changes what a table has for a key. What is no table gives way to one. -/
def alter (t : Tree) (key : String) (change : Option Tree → Tree) : Tree :=
  .table (alterEntry (Text.lowercase key) change t.entries) t.tableOrigin

mutual

/-- The tree in which a key has a value, into which the entries of a table are merged. -/
def put (t : Tree) (key : String) : Tree → Tree
  | .table incoming _ => t.alter key fun old => putAll (old.getD emptyTable) incoming
  | value => t.alter key fun _ => value

/-- The tree with some entries put in one after the other. -/
def putAll (t : Tree) : List (String × Tree) → Tree
  | [] => t
  | entry :: rest => putAll (put t entry.1 entry.2) rest

end

/-- The items of a list with at least `size` of them. -/
def padded (items : List Tree) (size : Nat) : List Tree :=
  items ++ List.replicate (size - items.length) (.leaf .nothing none)

/-- The place that an index means: negative ones count from the end. -/
def place (items : List Tree) (index : Int) : Nat :=
  if 0 ≤ index then index.toNat else items.length - index.natAbs

/-- Changes what a list has at an index. What is no list gives way to one, and places before a new
one are filled with nothing. -/
def alterItem (t : Tree) (index : Int) (change : Tree → Tree) : Tree :=
  let slot := place t.items index
  .list ((padded t.items (slot + 1)).modify slot change) t.listOrigin

end Tree

/-! ### Paths of keys -/

/-- A step from a tree to a part of it. -/
inductive Step where
  | child (key : String)
  | item (index : Int)
  deriving DecidableEq, Repr

/-- The way to a setting: a key, and steps from what it stands for. -/
structure Address where
  head : String
  steps : List Step
  deriving DecidableEq, Repr

namespace Address

/-- The characters of keys in an address. -/
def isKeyChar (c : Char) : Bool :=
  c.isAlphanum || c == ' ' || c == '_' || c == '-'

/-- The index that the characters between brackets are. Blanks may stand around it. -/
def index? (cs : List Char) : Option Int := do
  let isSpace := fun c => c == ' ' || c == '\t'
  let trimmed := ((cs.dropWhile isSpace).reverse.dropWhile isSpace).reverse
  let (negative, digits) := match trimmed with
    | '-' :: rest => (true, rest)
    | rest => (false, rest)
  if digits.isEmpty || !digits.all Decimal.isDigit then none
  else
    let n := Decimal.valueOfDigits 10 digits
    if n < Decimal.twoTo 63 then some (if negative then -(n : Int) else n) else none

/-- The steps that a text is: a point and a key, or an index in brackets, again and again. `bound`
is at least the number of steps. -/
def steps? : Nat → List Char → Option (List Step)
  | _, [] => some []
  | 0, _ => none
  | bound + 1, '.' :: rest =>
    let (key, rest) := rest.span isKeyChar
    if key.isEmpty then none
    else (steps? bound rest).map (.child (String.ofList key) :: ·)
  | bound + 1, '[' :: rest =>
    let (inside, rest) := rest.span (· != ']')
    match rest with
    | ']' :: rest => do return .item (← index? inside) :: (← steps? bound rest)
    | _ => none
  | _ + 1, _ => none

/-- The address that a text is. A text of another form is a single key. -/
def ofText (s : String) : Address :=
  let (head, rest) := s.toList.span isKeyChar
  match if head.isEmpty then none else steps? rest.length rest with
  | some steps => ⟨String.ofList head, steps⟩
  | none => ⟨s, []⟩

end Address

namespace Tree

/-- Puts a value at the end of some steps. -/
def putAt (value : Tree) : List Step → Tree → Tree
  | [], t => t
  | [.child key], t => t.put key value
  | [.item index], t => t.alterItem index fun _ => value
  | .child key :: rest, t =>
    t.alter key fun old => putAt value rest (old.getD (.leaf .nothing none))
  | .item index :: rest, t => t.alterItem index (putAt value rest)

/-- Puts a value at an address. -/
def putAddress (t : Tree) (address : Address) (value : Tree) : Tree :=
  putAt value (.child address.head :: address.steps) t

/-- Puts in what a layer says: a value for each of some addresses. -/
def addLayer (t : Tree) (layer : List (String × Tree)) : Tree :=
  layer.foldl (fun t entry => t.putAddress (.ofText entry.1) entry.2) t

end Tree
end Settings
end VirtualShell
