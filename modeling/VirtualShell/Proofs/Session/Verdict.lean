import VirtualShell.Proofs.Session.Outcome
import VirtualShell.Proofs.Session.Twins
import VirtualShell.Proofs.Tree.Editing

/-!
# What a changing operation comes to

The four operations that change something look at the path that they name and for a directory above
it, and at nothing else.  From these two follow the answer and the edit that is made.  On a store
that holds a tree and refuses nothing an operation obeys them, unless the quota stops it.
-/

namespace VirtualShell

open Contents (Fits Plantable)
open Session (createdAt)

namespace Contents

/-- Whether there is a directory above a path. -/
def houses (nodes : Contents) (path : String) : Bool :=
  (Path.parent? path).bind nodes.kind? = some .directory

theorem houses_iff {nodes : Contents} {path : String} :
    nodes.houses path = true ↔
      ∃ parent, Path.parent? path = some parent ∧ nodes.kind? parent = some .directory := by
  rw [houses, decide_eq_true_iff, Option.bind_eq_some_iff]

/-- The contents after an edit, if one is made. -/
def amend (nodes : Contents) (path : String) : Option Edit → Contents
  | none => nodes
  | some e => nodes.edit path e

end Contents

/-- Where a cursor goes with an edit, if one is made. -/
def Edit.carry (path cursor : String) : Option Edit → String
  | none => cursor
  | some e => e.move path ((Path.parent? path).getD Path.root) cursor

namespace Operation

/-- The path that an operation names, if it can change something there. -/
def target? : Operation → Option String
  | .createFile raw _ | .touch raw | .createDirectory raw | .delete raw => some raw
  | _ => none

/-- Whether there is something to do, going by what is found. -/
def wants (found : Option Node) : Operation → Bool
  | .createFile _ _ | .touch _ => found.map Node.kind ≠ some .directory
  | .createDirectory _ => found.isNone
  | .delete _ => found.isSome
  | _ => false

/-- Whether it is fine that there is nothing to do. -/
def contents (found : Option Node) : Operation → Bool
  | .touch _ | .createDirectory _ => found.map Node.kind = some .directory
  | _ => false

/-- What there is to do. -/
def edit (now : Timestamp) (path : String) (found : Option Node) : Operation → Edit
  | .createFile _ content => .put (.file path content (createdAt found now) now)
  | .touch _ => .put (.file path "" (createdAt found now) now)
  | .createDirectory _ => .put (.emptyDirectory path (Path.name path))
  | _ => .clear

/-- What is done at a path. -/
def edit? (operation : Operation) (now : Timestamp) (nodes : Contents) (path : String) :
    Option Edit :=
  if operation.wants (nodes.find? path) && nodes.houses path then
    some (operation.edit now path (nodes.find? path))
  else none

/-- What is answered. -/
def answer (operation : Operation) (nodes : Contents) (path : String) : Bool :=
  operation.wants (nodes.find? path) && nodes.houses path ||
    operation.contents (nodes.find? path)

/-- What is done fits. -/
theorem exists_fits {operation : Operation} {now : Timestamp} {nodes : Contents} {path : String}
    (hpath : Path.Canonical path) {e : Edit} (hedit : operation.edit? now nodes path = some e) :
    ∃ parent, Path.parent? path = some parent ∧ Fits nodes path parent e := by
  rw [edit?] at hedit
  split at hedit
  · rename_i hwanted
    rw [Bool.and_eq_true, Contents.houses_iff] at hwanted
    obtain ⟨hwants, parent, hparent, hdirectory⟩ := hwanted
    refine ⟨parent, hparent, ?_⟩
    obtain rfl := Option.some.inj hedit
    cases operation with
    | createFile raw content | touch raw =>
        exact .put rfl ⟨hpath, hparent, hdirectory, of_decide_eq_true hwants, rfl,
          by rintro _ _ _ ⟨⟩⟩
    | createDirectory raw =>
        refine .put rfl ⟨hpath, hparent, hdirectory, ?_, rfl, by rintro _ _ _ ⟨⟩; rfl⟩
        rw [Node.emptyDirectory, Node.path_directory, Contents.kind?,
          Option.isNone_iff_eq_none.mp hwants]
        simp
    | delete raw => exact .clear ⟨hwants, hparent⟩
    | _ => cases hwants
  · cases hedit

end Operation

/-! ### Verdicts -/

/-- What an operation has come to that no quota stopped. -/
structure Operation.Obeys (options : SessionOptions) (operation : Operation) (s : Scene)
    (nodes : Contents) (path : String) : Prop where
  answer : ((operation.perform options).play s).1 = .ok (.truth (operation.answer nodes path))
  holds : ((operation.perform options).play s).2.store.Holds
    (nodes.amend path (operation.edit? s.now nodes path))
  cursor : ((operation.perform options).play s).2.cursor =
    Edit.carry path s.cursor (operation.edit? s.now nodes path)

namespace Operation

section

variable {nodes : Contents} {path : String} (operation : Operation) (now : Timestamp)

theorem edit?_of_wants (hwants : operation.wants (nodes.find? path) = true)
    (hhouses : nodes.houses path = true) :
    operation.edit? now nodes path = some (operation.edit now path (nodes.find? path)) := by
  rw [edit?, hwants, hhouses]
  rfl

theorem edit?_of_not_wants (hwants : operation.wants (nodes.find? path) = false) :
    operation.edit? now nodes path = none := by
  rw [edit?, hwants]
  rfl

theorem edit?_of_not_houses (hhouses : nodes.houses path = false) :
    operation.edit? now nodes path = none := by
  rw [edit?, hhouses, Bool.and_false]
  rfl

end

section

variable {options : SessionOptions} {operation : Operation} {action : Action Bool} {s : Scene}
  {nodes : Contents} {path : String}
  (hperform : operation.perform options = do return Reply.truth (← action))

include hperform

/-- What the quota stopped is stopped. -/
theorem bitten_of_play {result : Except StorageError Bool} {s' : Scene}
    (hplay : action.play s = (result, s')) (hbitten : Bitten result) :
    Bitten ((operation.perform options).play s).1 := by
  obtain ⟨used, quota, rfl⟩ := hbitten
  rw [hperform, Session.play_truth hplay]
  exact ⟨used, quota, rfl⟩

theorem obeys_of_play {answer : Bool} {s' : Scene} (hplay : action.play s = (.ok answer, s'))
    (hanswer : operation.answer nodes path = answer)
    (hholds : s'.store.Holds (nodes.amend path (operation.edit? s.now nodes path)))
    (hcursor : s'.cursor = Edit.carry path s.cursor (operation.edit? s.now nodes path)) :
    operation.Obeys options s nodes path := by
  have hreply := Session.play_truth hplay
  rw [← hperform] at hreply
  exact ⟨by rw [hreply, hanswer]; rfl, by rwa [hreply], by rwa [hreply]⟩

variable (hs : s.store.Holds nodes)

include hs

/-- Where there is nothing to do, nothing is done. -/
theorem obeys_of_play_same {answer : Bool} (hplay : action.play s = (.ok answer, s))
    (hanswer : operation.answer nodes path = answer)
    (hedit : operation.edit? s.now nodes path = none) : operation.Obeys options s nodes path := by
  refine obeys_of_play hperform hplay hanswer ?_ ?_
  · rwa [hedit]
  · rw [hedit]
    rfl

/-- What is to be put is put below a directory, unless a quota stops it. -/
theorem obeys_of_insert (hrefusal : s.refusal = none) {node : Node} (hnode : node.path = path)
    (hwants : operation.wants (nodes.find? path) = true)
    (hcontents : operation.contents (nodes.find? path) = false)
    (hedit : operation.edit s.now path (nodes.find? path) = .put node)
    (hplay : action.play s = (Session.insert options path node).play s) :
    Bitten ((operation.perform options).play s).1 ∨ operation.Obeys options s nodes path := by
  have hanswer : operation.answer nodes path = nodes.houses path := by
    rw [answer, hwants, hcontents, Bool.true_and, Bool.or_false]
  cases hhouses : nodes.houses path with
  | false =>
      right
      rw [hhouses] at hanswer
      have hnowhere := Session.play_insert_nowhere options hs.shows node
        (of_decide_eq_false hhouses)
      exact obeys_of_play_same hperform hs (hplay.trans hnowhere) hanswer
        (edit?_of_not_houses operation s.now hhouses)
  | true =>
      have hput := edit?_of_wants operation s.now hwants hhouses
      rw [hedit] at hput
      obtain ⟨parent, hparent, hdirectory⟩ := Contents.houses_iff.mp hhouses
      obtain ⟨above, habove, hkind⟩ := Option.map_eq_some_iff.mp hdirectory
      cases above with
      | file own content created modified => cases hkind
      | directory own name children =>
          have hinsert := hplay.trans
            (Session.play_insert options hs.shows hrefusal node hparent habove)
          split at hinsert
          · exact .inl (bitten_of_play hperform hinsert ⟨_, _, rfl⟩)
          · right
            subst hnode
            refine obeys_of_play hperform hinsert (hanswer.trans hhouses) ?_ ?_
            · rw [hput, Contents.amend, Contents.edit, Contents.plant_eq_foldl hparent habove]
              exact hs.foldl_apply _
            · rw [hput]
              rfl

end

section

variable (options : SessionOptions) {s : Scene} {nodes : Contents} {raw path : String}
  (hs : s.store.Holds nodes) (hrefusal : s.refusal = none)
  (hresolve : Path.resolve raw s.cursor = .ok path)

include hs hrefusal hresolve

theorem createFile_obeys (content : String) :
    Bitten (((createFile raw content).perform options).play s).1 ∨
      (createFile raw content).Obeys options s nodes path := by
  have hplay := Session.play_createFile options hs.shows content hresolve
  by_cases hkind : nodes.kind? path = some .directory
  · rw [if_pos hkind] at hplay
    have hwants : (createFile raw content).wants (nodes.find? path) = false :=
      decide_eq_false (not_not_intro hkind)
    refine .inr (obeys_of_play_same rfl hs hplay ?_ (edit?_of_not_wants _ _ hwants))
    rw [answer, hwants]
    rfl
  · rw [if_neg hkind] at hplay
    exact obeys_of_insert rfl hs hrefusal rfl (decide_eq_true hkind) rfl rfl hplay

theorem touch_obeys (hpath : Path.Canonical path) :
    Bitten (((touch raw).perform options).play s).1 ∨
      (touch raw).Obeys options s nodes path := by
  have hplay := Session.play_touch options hs.shows hpath hresolve
  by_cases hkind : nodes.kind? path = some .directory
  · rw [if_pos hkind] at hplay
    have hwants : (touch raw).wants (nodes.find? path) = false :=
      decide_eq_false (not_not_intro hkind)
    refine .inr (obeys_of_play_same rfl hs hplay ?_ (edit?_of_not_wants _ _ hwants))
    rw [answer, hwants]
    exact decide_eq_true hkind
  · rw [if_neg hkind] at hplay
    exact obeys_of_insert rfl hs hrefusal rfl (decide_eq_true hkind) (decide_eq_false hkind) rfl
      hplay

theorem createDirectory_obeys :
    Bitten (((createDirectory raw).perform options).play s).1 ∨
      (createDirectory raw).Obeys options s nodes path := by
  have hplay := Session.play_createDirectory options hs.shows hresolve
  rw [Contents.kind?] at hplay
  cases hfind : nodes.find? path with
  | none =>
      rw [hfind] at hplay
      refine obeys_of_insert rfl hs hrefusal rfl ?_ ?_ rfl hplay
      · rw [hfind]
        rfl
      · rw [hfind]
        rfl
  | some node =>
      rw [hfind] at hplay
      have hedit : (createDirectory raw).edit? s.now nodes path = none := by
        refine edit?_of_not_wants _ _ ?_
        rw [hfind]
        rfl
      right
      cases node with
      | directory own name children =>
          refine obeys_of_play_same rfl hs hplay ?_ hedit
          rw [answer, hfind]
          rfl
      | file own content created modified =>
          refine obeys_of_play_same rfl hs hplay ?_ hedit
          rw [answer, hfind]
          rfl

/-- A deletion stays below any quota. -/
theorem delete_obeys (htree : nodes.Tree) : (delete raw).Obeys options s nodes path := by
  cases hfind : nodes.find? path with
  | none =>
      have hplay := Session.play_delete_nothing options hs.shows hresolve (.inr hfind)
      have hwants : (delete raw).wants (nodes.find? path) = false := by
        rw [hfind]
        rfl
      refine obeys_of_play_same rfl hs hplay ?_ (edit?_of_not_wants _ _ hwants)
      rw [answer, hwants]
      rfl
  | some node =>
      cases hparent : Path.parent? path with
      | none =>
          have hplay := Session.play_delete_nothing options hs.shows hresolve (.inl hparent)
          have hhouses : nodes.houses path = false := by
            rw [Contents.houses, hparent]
            rfl
          refine obeys_of_play_same rfl hs hplay ?_ (edit?_of_not_houses _ _ hhouses)
          rw [answer, hhouses, Bool.and_false]
          rfl
      | some parent =>
          have hplay := Session.play_delete options hs.shows hrefusal hresolve hparent hfind
          have hwants : (delete raw).wants (nodes.find? path) = true := by
            rw [hfind]
            rfl
          have hhouses : nodes.houses path = true :=
            Contents.houses_iff.mpr ⟨parent, hparent, htree.kind?_parent hfind hparent⟩
          have hprune : Contents.Prunable nodes path parent := ⟨by rw [hfind]; rfl, hparent⟩
          have hedit := edit?_of_wants (delete raw) s.now hwants hhouses
          refine obeys_of_play rfl hplay ?_ ?_ ?_
          · rw [answer, hwants, hhouses]
            rfl
          · rw [hedit]
            show Store.Holds _ (nodes.prune path)
            rw [← Contents.foldl_removal_eq_prune htree hprune
              (htree.grounded.mem_doomed hs.shows hfind)]
            exact hs.foldl_apply _
          · rw [hedit, Edit.carry, hparent]
            rfl

end

/-- On a store that holds a tree and refuses nothing, an operation does what there is to do and
answers accordingly, unless a quota stops it. -/
theorem obeys (options : SessionOptions) {operation : Operation} {s : Scene} {nodes : Contents}
    (hs : s.store.Holds nodes) (htree : nodes.Tree) (hrefusal : s.refusal = none)
    {raw path : String} (htarget : operation.target? = some raw)
    (hresolve : Path.resolve raw s.cursor = .ok path) (hpath : Path.Canonical path) :
    Bitten ((operation.perform options).play s).1 ∨ operation.Obeys options s nodes path := by
  cases operation with
  | createFile raw' content =>
      obtain rfl := Option.some.inj htarget
      exact createFile_obeys options hs hrefusal hresolve content
  | touch raw' =>
      obtain rfl := Option.some.inj htarget
      exact touch_obeys options hs hrefusal hresolve hpath
  | createDirectory raw' =>
      obtain rfl := Option.some.inj htarget
      exact createDirectory_obeys options hs hrefusal hresolve
  | delete raw' =>
      obtain rfl := Option.some.inj htarget
      exact .inr (delete_obeys options hs hrefusal hresolve htree)
  | _ => cases htarget

end Operation
end VirtualShell
