import VirtualShell.Proofs.Path.Characters
import VirtualShell.Proofs.Routine.InStep
import VirtualShell.Proofs.Session.Success

/-!
# Operations keep to their texts

An operation of a session puts out events only, and every text that it hands to the store, to the
cursor or to its caller is made of characters that it was given, and of those that canonical paths
are written with.  So it goes in step with itself under every accord.
-/

namespace VirtualShell

namespace Accord

variable {A : Accord}

theorem allows_of_resolve {raw cwd path : String} (hresolve : Path.resolve raw cwd = .ok path)
    (hraw : A.Allows raw) (hcwd : A.Allows cwd) : A.Allows path := by
  intro c hc
  rcases Path.mem_of_resolve hresolve hc with rfl | rfl | hc | hc
  · exact A.allowed_of_ne _ (by decide)
  · exact A.allowed_of_ne _ (by decide)
  · exact hraw c hc
  · exact hcwd c hc

theorem allows_parent {path parent : String} (hparent : Path.parent? path = some parent)
    (hpath : A.Allows path) : A.Allows parent :=
  fun c hc => hpath c (Path.mem_of_parent? hparent hc)

theorem allows_name {path : String} (hpath : A.Allows path) : A.Allows (Path.name path) :=
  fun c hc => hpath c (Path.mem_of_mem_name hc)

theorem allows_of_isDigit {cs : List Char} (hcs : ∀ c ∈ cs, c.isDigit = true) :
    A.Allows (String.ofList cs) := by
  refine allows_of_notMem fun hmem => ?_
  rw [String.toList_ofList] at hmem
  exact absurd (hcs _ hmem) (by decide)

theorem allows_toDigits (n : Nat) : A.Allows (String.ofList (Nat.toDigits 10 n)) :=
  allows_of_isDigit fun _ hc => Nat.isDigit_of_mem_toDigits (by decide) (by decide) hc

theorem allows_toString (n : Nat) : A.Allows (toString n) := by
  rw [show toString n = String.ofList (Nat.toDigits 10 n) from Nat.repr_eq_ofList_toDigits]
  exact allows_toDigits n

theorem allows_quotaExceeded (used quota : Nat) :
    A.Allows (StorageError.quotaExceeded used quota).message := by
  have hused := allows_append (A := A) (allows_of_notMem (s := "storage quota exceeded: ")
    (by decide)) (allows_toString used)
  have hof := allows_append hused (allows_of_notMem (s := " of ") (by decide))
  exact allows_append (allows_append hof (allows_toString quota))
    (allows_of_notMem (s := " bytes used") (by decide))

theorem allowsNode_file {path content : String} (hpath : A.Allows path)
    (hcontent : A.Allows content) (created modified : Timestamp) :
    A.AllowsNode (.file path content created modified) :=
  ⟨hpath, hcontent⟩

theorem allowsNode_emptyDirectory {path : String} (hpath : A.Allows path) :
    A.AllowsNode (.emptyDirectory path (Path.name path)) :=
  ⟨hpath, allows_name hpath, List.forall_mem_nil _⟩

end Accord

namespace Session

open VirtualShell.Action

variable {A : Accord} (options : SessionOptions)

theorem steady_report (level : Log.Level) (message : String) (fields : List (String × Log.Value)) :
    Steady A (fun _ => True) (report level message fields) :=
  steady_log _

theorem steady_flushIfWanted : Steady A (fun _ => True) (flushIfWanted options) := by
  rw [flushIfWanted]
  split
  · exact steady_flush
  · exact steady_pure trivial

theorem steady_resolve {raw : String} (hraw : A.Allows raw) :
    Steady A (fun resolved => ∀ path ∈ resolved, A.Allows path) (resolve raw) := by
  refine steady_cursor.bind fun cursor hcursor => ?_
  cases hresolve : Path.resolve raw cursor with
  | ok path =>
      refine steady_pure ?_
      rintro _ ⟨⟩
      exact Accord.allows_of_resolve hresolve hraw hcursor
  | error e => exact (steady_report _ _ _).bind fun _ _ => steady_pure (by simp)

theorem steady_entries (directory : String) {names : List String}
    (hnames : ∀ name ∈ names, A.Allows name) :
    Steady A (fun listed => ∀ entry ∈ listed, A.Allows entry.name) (entries directory names) := by
  induction names with
  | nil => exact steady_pure (by simp)
  | cons name names ih =>
      rw [List.forall_mem_cons] at hnames
      refine (steady_get _).bind fun found _ => ?_
      cases found with
      | none => exact (steady_report _ _ _).bind fun _ _ => ih hnames.2
      | some node =>
          refine (ih hnames.2).bind fun rest hrest => steady_pure ?_
          exact List.forall_mem_cons.mpr ⟨hnames.1, hrest⟩

theorem steady_listDirectory {raw : String} (hraw : A.Allows raw) :
    Steady A (fun listed => ∀ entries ∈ listed, ∀ entry ∈ entries, A.Allows entry.name)
      (listDirectory raw) := by
  refine (steady_resolve hraw).bind fun resolved _ => ?_
  cases resolved with
  | none => exact steady_pure (by simp)
  | some path =>
      refine (steady_get path).bind fun found hfound => ?_
      rcases found with _ | ⟨own, name, children⟩ | ⟨own, content, created, modified⟩
      · exact steady_pure (by simp)
      · obtain ⟨-, -, hchildren⟩ := hfound _ rfl
        refine (steady_entries path hchildren).bind fun listed hlisted => steady_pure ?_
        rintro _ ⟨⟩
        exact hlisted
      · exact steady_pure (by simp)

theorem steady_changeDirectory {raw : String} (hraw : A.Allows raw) :
    Steady A (fun _ => True) (changeDirectory raw) := by
  refine (steady_resolve hraw).bind fun resolved hresolved => ?_
  cases resolved with
  | none => exact steady_pure trivial
  | some path =>
      refine (steady_get path).bind fun found _ => ?_
      rcases found with _ | ⟨own, name, children⟩ | ⟨own, content, created, modified⟩
      · exact steady_pure trivial
      · exact steady_cursor.bind fun _ _ => (steady_report _ _ _).bind fun _ _ =>
          (steady_moveCursor (hresolved path rfl)).bind fun _ _ => steady_pure trivial
      · exact steady_pure trivial

theorem steady_fileText {raw : String} (hraw : A.Allows raw) :
    Steady A (fun text => ∀ content ∈ text, A.Allows content) (fileText raw) := by
  refine (steady_resolve hraw).bind fun resolved _ => ?_
  cases resolved with
  | none => exact steady_pure (by simp)
  | some path =>
      refine (steady_get path).bind fun found hfound => ?_
      rcases found with _ | ⟨own, name, children⟩ | ⟨own, content, created, modified⟩
      · exact steady_pure (by simp)
      · exact steady_pure (by simp)
      · refine steady_pure ?_
        rintro _ ⟨⟩
        exact (hfound _ rfl).2

/-! ### Changes -/

theorem steady_checkQuota (node : Node) :
    Steady A (fun _ => True) (checkQuota options node) := by
  refine Action.steady_usage.bind fun used _ => ?_
  split
  · exact (steady_report _ _ _).bind fun _ _ => steady_throw (Accord.allows_quotaExceeded _ _)
  · exact steady_pure trivial

/-- What is inserted are the node and the directory with its name. -/
theorem allows_insertion {node : Node} {name parentPath parentName : String}
    {children : List String} (hnode : A.AllowsNode node) (hname : A.Allows name)
    (hparent : A.AllowsNode (.directory parentPath parentName children)) :
    ∀ change ∈ insertion node name parentPath parentName children,
      ∀ written ∈ change.result, A.AllowsNode written := by
  obtain ⟨hpath, hown, hchildren⟩ := hparent
  have hlisted : A.AllowsNode (.directory parentPath parentName (children ++ [name])) :=
    ⟨hpath, hown, by simpa [or_imp, forall_and] using ⟨hchildren, hname⟩⟩
  rw [insertion]
  split
  · simpa [Change.result] using hnode
  · simpa [Change.result] using ⟨hnode, hlisted⟩

theorem steady_insert {path : String} {node : Node} (hpath : A.Allows path)
    (hnode : A.AllowsNode node) : Steady A (fun _ => True) (insert options path node) := by
  rw [insert]
  cases Path.parent? path with
  | none => exact steady_pure trivial
  | some parent =>
      refine (steady_get parent).bind fun found hfound => ?_
      rcases found with _ | ⟨own, name, children⟩ | ⟨own, content, created, modified⟩
      · exact steady_pure trivial
      · exact (steady_checkQuota options node).bind fun _ _ =>
          (steady_commit (allows_insertion hnode (Accord.allows_name hpath) (hfound _ rfl))).bind
            fun _ _ => (steady_flushIfWanted options).bind fun _ _ => steady_pure trivial
      · exact steady_pure trivial

theorem steady_insert_report {path : String} {node : Node} (hpath : A.Allows path)
    (hnode : A.AllowsNode node) (level : Log.Level) (message : String)
    (fields : List (String × Log.Value)) :
    Steady A (fun _ => True) (do
      let inserted ← insert options path node
      if inserted then report level message fields
      return inserted : Action Bool) := by
  refine (steady_insert options hpath hnode).bind fun inserted _ => ?_
  cases inserted with
  | false => exact steady_pure trivial
  | true => exact (steady_report _ _ _).bind fun _ _ => steady_pure trivial

theorem steady_createFile {raw content : String} (hraw : A.Allows raw)
    (hcontent : A.Allows content) :
    Steady A (fun _ => True) (createFile options raw content) := by
  refine (steady_resolve hraw).bind fun resolved hresolved => ?_
  cases resolved with
  | none => exact steady_pure trivial
  | some path =>
      have hpath := hresolved path rfl
      refine steady_clock.bind fun now _ => (steady_get path).bind fun found _ => ?_
      rcases found with _ | ⟨own, name, children⟩ | ⟨own, content, created, modified⟩
      · exact steady_insert_report options hpath (Accord.allowsNode_file hpath hcontent _ _) _ _ _
      · exact steady_pure trivial
      · exact steady_insert_report options hpath (Accord.allowsNode_file hpath hcontent _ _) _ _ _

theorem steady_touch {raw : String} (hraw : A.Allows raw) :
    Steady A (fun _ => True) (touch options raw) := by
  refine (steady_resolve hraw).bind fun resolved hresolved => ?_
  cases resolved with
  | none => exact steady_pure trivial
  | some path =>
      have hcreate : Steady A (fun _ => True) (createFile options path "") :=
        steady_createFile options (hresolved path rfl) (Accord.allows_of_notMem (by decide))
      refine (steady_get path).bind fun found _ => ?_
      rcases found with _ | ⟨own, name, children⟩ | ⟨own, content, created, modified⟩
      · exact hcreate
      · exact steady_pure trivial
      · exact hcreate

theorem steady_createDirectory {raw : String} (hraw : A.Allows raw) :
    Steady A (fun _ => True) (createDirectory options raw) := by
  refine (steady_resolve hraw).bind fun resolved hresolved => ?_
  cases resolved with
  | none => exact steady_pure trivial
  | some path =>
      have hpath := hresolved path rfl
      refine (steady_get path).bind fun found _ => ?_
      rcases found with _ | ⟨own, name, children⟩ | ⟨own, content, created, modified⟩
      · exact steady_insert_report options hpath (Accord.allowsNode_emptyDirectory hpath) _ _ _
      · exact steady_pure trivial
      · exact steady_pure trivial

/-- What a removal writes is the directory above with one name less. -/
theorem allows_removal {doomed : List String} {name : String} {parent : Option Node}
    (hparent : ∀ node ∈ parent, A.AllowsNode node) :
    ∀ change ∈ removal doomed name parent, ∀ node ∈ change.result, A.AllowsNode node := by
  have hremoves : ∀ change ∈ doomed.map Change.remove, ∀ node ∈ change.result,
      A.AllowsNode node := by
    rintro _ hchange node hnode
    obtain ⟨path, -, rfl⟩ := List.mem_map.mp hchange
    cases hnode
  rcases parent with _ | ⟨own, parentName, children⟩ | ⟨own, content, created, modified⟩
  · simpa only [removal, List.append_nil] using hremoves
  · obtain ⟨hpath, hname, hchildren⟩ := hparent _ rfl
    refine List.forall_mem_append.mpr ⟨hremoves, List.forall_mem_singleton.mpr ?_⟩
    rintro _ ⟨⟩
    exact ⟨hpath, hname, fun child hchild => hchildren child (List.mem_of_mem_filter hchild)⟩
  · simpa only [removal, List.append_nil] using hremoves

theorem steady_remove (path : String) {parent : String} (hparent : A.Allows parent)
    (doomed : List String) : Steady A (fun _ => True) (remove options path parent doomed) := by
  refine (steady_get parent).bind fun above habove => ?_
  refine (steady_commit (allows_removal habove)).bind fun _ _ => ?_
  refine (steady_flushIfWanted options).bind fun _ _ => (steady_report _ _ _).bind fun _ _ => ?_
  refine steady_cursor.bind fun cursor _ => ?_
  dsimp only
  split
  · exact (steady_moveCursor hparent).bind fun _ _ => steady_pure trivial
  · exact steady_pure trivial

theorem steady_delete {raw : String} (hraw : A.Allows raw) :
    Steady A (fun _ => True) (delete options raw) := by
  refine (steady_resolve hraw).bind fun resolved hresolved => ?_
  cases resolved with
  | none => exact steady_pure trivial
  | some path =>
      dsimp only
      cases hparent : Path.parent? path with
      | none => exact steady_pure trivial
      | some parent =>
          have hallowed := Accord.allows_parent hparent (hresolved path rfl)
          refine (steady_get path).bind fun found _ => ?_
          cases found with
          | none => exact steady_pure trivial
          | some node =>
              cases node with
              | directory own name children =>
                  exact (steady_subtree path).bind fun doomed _ =>
                    steady_remove options path hallowed doomed
              | file own content created modified =>
                  exact steady_remove options path hallowed [path]

theorem steady_usage : Steady A (fun _ => True) (Session.usage options) :=
  Action.steady_usage.bind fun _ _ => steady_pure trivial

end Session
end VirtualShell
