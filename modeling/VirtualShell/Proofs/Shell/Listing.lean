import VirtualShell.Proofs.Session.Steady
import VirtualShell.Proofs.Shell.Dialogue
import VirtualShell.Proofs.Shell.Typing

/-!
# Reading a listing back

Where all that sessions are given is command lines, no name has blanks or separators in it.  So the
line that shows a directory can be read back: its words are the entries, a directory is told from a
file by the separator at its end, and four blanks between words cannot come from the text that
stands for an empty directory.  Two listings that show the same text are therefore the same.
-/

namespace VirtualShell

open Text (Unbroken)

/-- A text that can stand as a word in a listing: it is not empty, and has no separators, blanks or
control characters. -/
def Path.IsPlain (name : String) : Prop :=
  name ≠ "" ∧ ∀ c ∈ name.toList,
    c ≠ separator ∧ Text.isBlank c = false ∧ Text.isControl c = false

theorem Path.IsPlain.of_isComponent {name : String} (hcomponent : IsComponent name.toList)
    (hunbroken : Unbroken name) : IsPlain name := by
  refine ⟨fun hempty => ?_, fun c hc => ⟨fun hseparator => ?_, hunbroken c hc, ?_⟩⟩
  · exact hcomponent.ne_nil (by rw [hempty]; rfl)
  · exact hcomponent.noSeparator (hseparator ▸ hc)
  · exact hcomponent.noControl c hc

/-! ### The line that shows a directory -/

namespace Command

variable {entry entry' : Entry} {entries entries' : List Entry}

theorem entryText_of_directory (hkind : entry.kind = .directory) :
    entryText ⟨false⟩ entry = entry.name ++ "/" := by
  rw [entryText, hkind]
  rfl

theorem entryText_of_file (hkind : entry.kind = .file) :
    entryText ⟨false⟩ entry = entry.name := by
  rw [entryText, hkind]
  rfl

theorem isWord_entryText (hname : Path.IsPlain entry.name) :
    Line.IsWord (entryText ⟨false⟩ entry) := by
  obtain ⟨hne, hplain⟩ := hname
  cases hkind : entry.kind with
  | directory =>
      rw [entryText_of_directory hkind]
      refine ⟨by simp, fun c hc => ?_⟩
      rw [String.toList_append, List.mem_append] at hc
      rcases hc with hc | hc
      · exact (hplain c hc).2.1
      · obtain rfl : c = '/' := List.mem_singleton.mp hc
        decide
  | file =>
      rw [entryText_of_file hkind]
      exact ⟨hne, fun c hc => (hplain c hc).2.1⟩

/-- The text of a directory is not that of a file. -/
theorem entryText_ne (hkind : entry.kind = .directory) (hkind' : entry'.kind = .file)
    (hname' : Path.IsPlain entry'.name) : entryText ⟨false⟩ entry ≠ entryText ⟨false⟩ entry' := by
  rw [entryText_of_directory hkind, entryText_of_file hkind']
  intro htext
  have hmem : Path.separator ∈ entry'.name.toList := by
    rw [← htext, String.toList_append]
    exact List.mem_append_right _ (List.mem_singleton_self _)
  exact (hname'.2 _ hmem).1 rfl

theorem eq_of_entryText (hname : Path.IsPlain entry.name) (hname' : Path.IsPlain entry'.name)
    (htext : entryText ⟨false⟩ entry = entryText ⟨false⟩ entry') : entry = entry' := by
  obtain ⟨name, kind⟩ := entry
  obtain ⟨name', kind'⟩ := entry'
  cases kind with
  | directory =>
      cases kind' with
      | directory =>
          have hsame : name ++ "/" = name' ++ "/" := htext
          rw [(String.append_left_inj "/").mp hsame]
      | file => exact absurd htext (entryText_ne rfl rfl hname')
  | file =>
      cases kind' with
      | directory => exact absurd htext.symm (entryText_ne rfl rfl hname)
      | file => exact congrArg (Entry.mk · .file) htext

/-- The words of a listing are its entries. -/
theorem words_listingText (hnames : ∀ entry ∈ entries, Path.IsPlain entry.name)
    (hentries : entries ≠ []) :
    Line.words (listingText ⟨false⟩ entries) = entries.map (entryText ⟨false⟩) := by
  rw [listingText, if_neg (by simpa using hentries)]
  refine Line.words_intercalate (by decide) fun token htoken => ?_
  obtain ⟨entry, hentry, rfl⟩ := List.mem_map.mp htoken
  exact isWord_entryText (hnames entry hentry)

/-- No files look like an empty directory. -/
theorem listingText_ne_empty (hnames : ∀ entry ∈ entries, Path.IsPlain entry.name)
    (hentries : entries ≠ []) : listingText ⟨false⟩ entries ≠ listingText ⟨false⟩ [] := by
  intro htext
  have hwords := words_listingText hnames hentries
  have hempty : Line.words (listingText ⟨false⟩ []) = ["(empty", "directory)"] := by decide
  rw [htext, hempty] at hwords
  -- it would have to be two files, and these have a gap between them
  rw [listingText, if_neg (by simpa using hentries), ← hwords] at htext
  exact absurd htext (by decide)

/-- A listing can be read off the line that shows it. -/
theorem eq_of_listingText (hnames : ∀ entry ∈ entries, Path.IsPlain entry.name)
    (hnames' : ∀ entry ∈ entries', Path.IsPlain entry.name)
    (htext : listingText ⟨false⟩ entries = listingText ⟨false⟩ entries') : entries = entries' := by
  by_cases hentries : entries = []
  · by_cases hentries' : entries' = []
    · rw [hentries, hentries']
    · rw [hentries] at htext
      exact absurd htext.symm (listingText_ne_empty hnames' hentries')
  · by_cases hentries' : entries' = []
    · rw [hentries'] at htext
      exact absurd htext (listingText_ne_empty hnames hentries)
    · have hwords := congrArg Line.words htext
      rw [words_listingText hnames hentries, words_listingText hnames' hentries'] at hwords
      clear htext hentries hentries'
      induction entries generalizing entries' with
      | nil => exact (List.map_eq_nil_iff.mp hwords.symm).symm
      | cons entry entries ih =>
          cases entries' with
          | nil => cases hwords
          | cons entry' entries' =>
              rw [List.forall_mem_cons] at hnames hnames'
              obtain ⟨hfirst, hrest⟩ := List.cons.inj hwords
              rw [eq_of_entryText hnames.1 hnames'.1 hfirst, ih hnames.2 hnames'.2 hrest]

end Command

/-! ### What a listing command puts out -/

/-- Two routines in step that put out events only, and the same ones. -/
def Accord.events : Accord where
  allowed _ := True
  pairs output output' := output = output' ∧ ∃ e, output = .event e
  allowed_of_ne _ _ := trivial
  pairs_event e := ⟨rfl, e, rfl⟩

/-- What is in step with itself in putting out events only does so. -/
theorem Routine.InStep.output_run {α : Type} {post : α → Prop} {routine : Routine α}
    (hsteady : routine.InStep .events post routine) {w : World}
    (hw : ∀ output ∈ w.output, ∃ e, output = .event e) :
    ∀ output ∈ (routine.run w).2.output, ∃ e, output = .event e := by
  have hjoins : Accord.events.Joins w w :=
    ⟨rfl, List.forall₂_same.mpr fun output houtput => ⟨rfl, hw output houtput⟩⟩
  obtain ⟨-, -, hafter, -⟩ :=
    hsteady.run hjoins (Accord.trusts_of_forall (fun _ => trivial) w)
  exact fun output houtput => (List.forall₂_same.mp hafter.output output houtput).2

/-- Events show no text. -/
theorem textSinceClear_append {events : List Output}
    (hevents : ∀ output ∈ events, ∃ e, output = .event e) (s t : String) :
    textSinceClear (events ++ [.text s, .text t]) = s ++ t := by
  have hclear : ∀ output ∈ events ++ [.text s, .text t], decide (output ≠ .clear) = true := by
    intro output houtput
    rcases List.mem_append.mp houtput with hevent | htext
    · obtain ⟨e, rfl⟩ := hevents output hevent
      rfl
    · rcases List.mem_pair.mp htext with rfl | rfl <;> rfl
  have hnone : events.filterMap Output.shown? = [] := by
    refine List.filterMap_eq_nil_iff.mpr fun output hevent => ?_
    obtain ⟨e, rfl⟩ := hevents output hevent
    rfl
  rw [textSinceClear, List.rtakeWhile_eq_self_iff.mpr hclear, List.filterMap_append, hnone]
  simp [Output.shown?, String.join_cons]

namespace Shell

variable (shell : Shell) (invocation : Invocation)

/-- What an invocation of `ls` does before it shows anything. -/
def look : Routine (Except StorageError (Option (List Entry))) := do
  report .debug "Executing"
    [("command", .text invocation.name), ("args", .text (Text.quotedList invocation.args))]
  ExceptT.run (Session.listDirectory (invocation.args.headD "."))

/-- What it shows for what it found. -/
def showListing : Except StorageError (Option (List Entry)) → Routine Outcome
  | .ok (some entries) => do
    Routine.writeLine (Command.listingText shell.palette entries)
    return .success
  | .ok none => do
    Routine.writeError shell.palette
      ("ls: " ++ invocation.args.headD "." ++ ": No such directory")
    return .failure
  | .error e => do
    report .error "Command failed with storage error"
      [("command", .text invocation.name), ("error", .text e.message)]
    Routine.writeError shell.palette (invocation.name ++ ": storage failure: " ++ e.message)
    return .storageFailure

theorem perform_ls (hcommand : shell.registry.find? invocation.name = some .ls) :
    shell.perform invocation = (look invocation).bind (showListing shell invocation) := by
  rw [perform, hcommand]
  show Routine.bind _ (fun _ => Routine.bind (Routine.bind
    (ExceptT.run (Session.listDirectory (invocation.args.headD "."))) (ExceptT.bindCont _)) _) = _
  rw [Routine.bind_assoc, look]
  refine Eq.trans ?_ (Routine.bind_assoc _ _ _).symm
  congr 1
  funext _
  congr 1
  funext listed
  rcases listed with e | _ | entries <;> rfl

/-- Looking reports, and shows nothing. -/
theorem steady_look : (look invocation).InStep .events (fun _ => True) (look invocation) := by
  have hlist : Action.Steady .events (fun _ => True)
      (Session.listDirectory (invocation.args.headD ".")) :=
    (Session.steady_listDirectory fun _ _ => trivial).mono fun _ _ => trivial
  exact .emit (Accord.events.pairs_event _) (Routine.InStep.mono hlist fun _ _ => trivial)

variable {shell} {invocation}

/-- A listing command that succeeds shows what is listed. -/
theorem exists_listing (entry : ScriptLine) (w : World)
    (hline : Line.parse entry.text = some invocation)
    (hcommand : shell.registry.find? invocation.name = some .ls) (hw : w.output = [])
    (hsuccess : (shell.runLine entry w).1.outcome = .success) :
    ∃ entries, ((Session.listDirectory (invocation.args.headD ".")).play
        ((entry.start w).scene entry.medium)).1 = .ok (some entries) ∧
      textSinceClear (shell.runLine entry w).1.output =
        Command.listingText shell.palette entries ++ lineEnd := by
  have hlook : (((look invocation).upon entry.medium).run (entry.start w)).1 =
      ((Session.listDirectory (invocation.args.headD ".")).play
        ((entry.start w).scene entry.medium)).1 :=
    congrArg Prod.fst ((look invocation).run_upon_scene entry.medium (entry.start w))
  -- whatever comes before the listing is an event, and shows nothing
  have hevents := ((steady_look invocation).upon
    (fun _ _ _ _ => trivial : Accord.events.TrustsMedium entry.medium)).output_run
      (w := entry.start w) (by simp [ScriptLine.start, hw])
  have hrun : ((shell.execute entry.text).upon entry.medium).run (entry.start w) =
      ((showListing shell invocation
        (((look invocation).upon entry.medium).run (entry.start w)).1).upon entry.medium).run
          (((look invocation).upon entry.medium).run (entry.start w)).2 := by
    rw [execute, hline]
    show ((shell.perform invocation).upon entry.medium).run (entry.start w) = _
    rw [perform_ls shell invocation hcommand, Routine.upon_bind]
    exact Routine.run_bind _ _ _
  rw [hlook] at hrun
  generalize (((look invocation).upon entry.medium).run (entry.start w)).2 = w' at hrun hevents
  rw [runLine, hrun] at hsuccess ⊢
  generalize ((Session.listDirectory (invocation.args.headD ".")).play
    ((entry.start w).scene entry.medium)).1 = listed at hsuccess ⊢
  have houtput : (entry.start w).output = [] := hw
  -- only a listing ends well
  rcases listed with e | _ | entries
  · cases hsuccess
  · cases hsuccess
  · refine ⟨entries, rfl, ?_⟩
    rw [← textSinceClear_append hevents, World.outputSince, houtput]
    show textSinceClear (w'.output ++ [_] ++ [_]) = _
    rw [List.append_assoc]
    rfl

end Shell

/-! ### Names in a tidy store -/

/-- All names that a node is stored with: the one at the end of its path, and for a directory its
own and those of its children. -/
def Node.storedNames : Node → List String
  | .directory path name children => Path.name path :: name :: children
  | .file path _ _ _ => [Path.name path]

namespace Contents

variable {nodes : Contents}

theorem isPlain_of_mem_names (htree : nodes.Tree) (hnodes : nodes.Unbroken) {path name : String}
    (hname : name ∈ nodes.names path) : Path.IsPlain name := by
  have hcomponent := htree.isComponent hname
  have hunbroken := hnodes _ ((htree.mem_names hcomponent).mp hname)
  refine .of_isComponent hcomponent fun c hc => hunbroken c ?_
  rw [Path.toList_join, List.mem_append]
  exact .inr (List.mem_cons_of_mem _ hc)

theorem isPlain_name (htree : nodes.Tree) (hnodes : nodes.Unbroken) {path : String} {node : Node}
    (hfind : nodes.find? path = some node) : Path.IsPlain (Path.name path) := by
  cases hparent : Path.parent? path with
  | none =>
      -- only the root has nothing above it, and it is its own name
      rw [(htree.canonical hfind).parent?_eq_none_iff.mp hparent]
      have hcontrol : ∀ c ∈ (Path.name Path.root).toList, Text.isControl c = false :=
        fun c hc => Path.Canonical.atRoot.noControl c (Path.mem_of_mem_name hc)
      exact .of_isComponent ⟨by decide, by decide, by decide, by decide, hcontrol⟩ (by decide)
  | some parent => exact isPlain_of_mem_names htree hnodes (htree.name_mem_names hfind hparent)

/-- In a tidy store all names are plain. -/
theorem isPlain_of_mem_storedNames (htree : nodes.Tree) (hnodes : nodes.Unbroken) {path : String}
    {node : Node} (hfind : nodes.find? path = some node) :
    ∀ name ∈ node.storedNames, Path.IsPlain name := by
  have hname := isPlain_name htree hnodes hfind
  rw [← htree.path_eq hfind] at hname
  cases node with
  | directory own name children =>
      have hchildren : ∀ child ∈ children, Path.IsPlain child := by
        intro child hchild
        rw [← names_of_find? hfind] at hchild
        exact isPlain_of_mem_names htree hnodes hchild
      obtain rfl : own = path := htree.path_eq hfind
      obtain rfl := htree.name_eq hfind
      intro name hmem
      rcases List.mem_cons.mp hmem with rfl | hmem
      · exact hname
      · rcases List.mem_cons.mp hmem with rfl | hmem
        · exact hname
        · exact hchildren name hmem
  | file own content created modified => exact List.forall_mem_singleton.mpr hname

end Contents

/-- What is listed is listed from the names under some path. -/
theorem Session.exists_path_of_play_listDirectory {s : Scene} {nodes : Contents}
    (hs : s.store.Holds nodes) {raw : String} {entries : List Entry}
    (hplay : ((listDirectory raw).play s).1 = .ok (some entries)) :
    ∃ path, entries = nodes.listing path (nodes.names path) := by
  cases hresolve : Path.resolve raw s.cursor with
  | error e =>
      rw [listDirectory, Action.play_bind, play_resolve, hresolve] at hplay
      cases hplay
  | ok path =>
      by_cases hdirectory : nodes.kind? path = some .directory
      · rw [play_listDirectory hs hresolve hdirectory] at hplay
        exact ⟨path, (Option.some.inj (Except.ok.inj hplay)).symm⟩
      · rw [listDirectory, Action.play_bind, play_resolve, hresolve] at hplay
        simp only [Except.toOption, Action.play_bind, Action.play_get, hs.get] at hplay
        rcases hfind : nodes.find? path with _ | ⟨own, name, children⟩ | _
        · rw [hfind] at hplay
          cases hplay
        · exact absurd (by rw [Contents.kind?, hfind]; rfl) hdirectory
        · rw [hfind] at hplay
          cases hplay

/-! ### Listings of sessions -/

namespace Shared

/-- A line asks a session for a listing without colours, and succeeds. -/
structure Lists (s : Shared) (client : Client) (shell : Shell) (invocation : Invocation)
    (line : String) : Prop where
  mem_clients : client ∈ s.clients
  registry : shell.registry = .builtins
  colorless : shell.palette.color = false
  parse_line : Line.parse line = some invocation
  name_eq : invocation.name = "ls" ∨ invocation.name = "dir"
  success : (s.typed client.cursor shell line).1.outcome = .success

/-- The text that a line shows. -/
def shownText (s : Shared) (client : Client) (shell : Shell) (line : String) : String :=
  textSinceClear (s.typed client.cursor shell line).1.output

/-- What is answered when the directory that a listing command means is asked for. -/
def listing (s : Shared) (client : Client) (invocation : Invocation) :
    Except StorageError Reply :=
  (s.request client.cursor client.options
    (.operate (.listDirectory (invocation.args.headD ".")))).1

variable {s s' : Shared} {nodes : Contents} {client client' : Client} {shell shell' : Shell}
  {invocation invocation' : Invocation} {line line' : String}

theorem Tidy.exists_listing (htidy : s.Tidy nodes)
    (hlists : s.Lists client shell invocation line) :
    ∃ entries, s.listing client invocation = .ok (.listing (some entries)) ∧
      (∀ entry ∈ entries, Path.IsPlain entry.name) ∧
      s.shownText client shell line = Command.listingText ⟨false⟩ entries ++ lineEnd := by
  have hcommand : shell.registry.find? invocation.name = some .ls := by
    rw [hlists.registry]
    rcases hlists.name_eq with hname | hname <;> rw [hname] <;> decide +kernel
  obtain ⟨entries, hplay, htext⟩ :=
    Shell.exists_listing ⟨line, s.now, s.medium⟩ (s.world client.cursor) hlists.parse_line hcommand
      rfl hlists.success
  replace hplay : ((Session.listDirectory (invocation.args.headD ".")).play
    (s.scene client.cursor)).1 = .ok (some entries) := hplay
  have hholds : (s.scene client.cursor).store.Holds nodes := htidy.holds
  obtain ⟨path, hentries⟩ := Session.exists_path_of_play_listDirectory hholds hplay
  refine ⟨entries, ?_, fun entry hentry => ?_, ?_⟩
  · rw [listing, result_request, Request.perform, Operation.perform, Action.play_bind]
    generalize (Session.listDirectory (invocation.args.headD ".")).play
      (s.scene client.cursor) = played at hplay
    obtain ⟨listed, after⟩ := played
    obtain rfl : listed = .ok (some entries) := hplay
    rfl
  · rw [hentries, Contents.listing, List.mem_filterMap] at hentry
    obtain ⟨name, hname, hentry⟩ := hentry
    obtain ⟨kind, -, rfl⟩ := Option.map_eq_some_iff.mp hentry
    exact Contents.isPlain_of_mem_names htidy.tree htidy.nodes hname
  · have hpalette : shell.palette = ⟨false⟩ := congrArg Palette.mk hlists.colorless
    rw [← hpalette]
    exact htext

/-- Whatever came about by typing, all names are plain: there are no empty ones, and none with
separators, blanks or control characters. -/
theorem Typed.isPlain_of_get (htyped : s.Typed) {path : String} {node : Node}
    (hget : s.store.get path = .ok (some node)) :
    ∀ name ∈ node.storedNames, Path.IsPlain name := by
  rcases htyped.blank_or_tidy with hblank | ⟨nodes, htidy⟩
  · rw [hblank.holds.get] at hget
    cases hget
  · rw [htidy.holds.get] at hget
    exact Contents.isPlain_of_mem_storedNames htidy.tree htidy.nodes (Except.ok.inj hget)

/-- What came about by typing has plain names only.  Wherever two listing commands show the same
text, without colours, they list the same entries in the same order. -/
theorem listing_of_shownText (htyped : s.Typed) (htyped' : s'.Typed) :
    (∀ path node, s.store.get path = .ok (some node) →
      ∀ name ∈ node.storedNames, Path.IsPlain name) ∧
    ∀ {client client' shell shell' invocation invocation' line line'},
      s.Lists client shell invocation line → s'.Lists client' shell' invocation' line' →
      s.shownText client shell line = s'.shownText client' shell' line' →
      ∃ entries, s.listing client invocation = .ok (.listing (some entries)) ∧
        s'.listing client' invocation' = .ok (.listing (some entries)) := by
  refine ⟨fun path node hget => htyped.isPlain_of_get hget, ?_⟩
  intro client client' shell shell' invocation invocation' line line' hlists hlists' hshown
  obtain ⟨nodes, htidy⟩ := htyped.tidy (List.ne_nil_of_mem hlists.mem_clients)
  obtain ⟨nodes', htidy'⟩ := htyped'.tidy (List.ne_nil_of_mem hlists'.mem_clients)
  obtain ⟨entries, hlisting, hplain, htext⟩ := htidy.exists_listing hlists
  obtain ⟨entries', hlisting', hplain', htext'⟩ := htidy'.exists_listing hlists'
  -- both lines end alike, so the listings before the ends are the same text
  rw [htext, htext', String.append_left_inj] at hshown
  obtain rfl := Command.eq_of_listingText hplain hplain' hshown
  exact ⟨entries, hlisting, hlisting'⟩

/-- A shell with the built-in commands, a quota and no colours. -/
def roomyShell : Shell :=
  { Shell.bareShell with options := ⟨1000, false⟩ }

/-- Two sessions made a file and a directory, and one of them went into the directory. -/
def filled : Shared :=
  List.foldl happen (fresh .memory 1)
    [.start false ⟨1000, false⟩, .line 0 roomyShell "mkdir docs", .tick 5,
      .line 0 roomyShell " touch docs/a  ", .start false ⟨0, false⟩,
      .line 1 roomyShell "mkdir docs/b", .line 0 roomyShell "cd docs/b"]

/-- Entries with the same names at another place. -/
def refilled : Shared :=
  List.foldl happen (fresh .durable 9)
    [.start false ⟨1000, true⟩, .line 0 roomyShell "touch a", .line 0 roomyShell "mkdir b"]

theorem listing_of_shownText_filled :
    filled.shownText ⟨"~/docs/b", ⟨1000, false⟩⟩ roomyShell "ls .." = "a    b/\r\n" ∧
      ∃ entries, filled.listing ⟨"~/docs/b", ⟨1000, false⟩⟩ ⟨"ls", [".."]⟩ =
          .ok (.listing (some entries)) ∧
        refilled.listing ⟨"~", ⟨1000, true⟩⟩ ⟨"dir", []⟩ = .ok (.listing (some entries)) := by
  -- one evaluation for each of the two states
  have hfilled : ⟨"~/docs/b", ⟨1000, false⟩⟩ ∈ filled.clients ∧
      (filled.typed "~/docs/b" roomyShell "ls ..").1.outcome = .success ∧
      filled.shownText ⟨"~/docs/b", ⟨1000, false⟩⟩ roomyShell "ls .." = "a    b/\r\n" := by
    decide +kernel
  have hrefilled : ⟨"~", ⟨1000, true⟩⟩ ∈ refilled.clients ∧
      (refilled.typed "~" roomyShell "dir").1.outcome = .success ∧
      refilled.shownText ⟨"~", ⟨1000, true⟩⟩ roomyShell "dir" = "a    b/\r\n" := by
    decide +kernel
  obtain ⟨hclient, hsuccess, hshown⟩ := hfilled
  obtain ⟨hclient', hsuccess', hshown'⟩ := hrefilled
  exact ⟨hshown, (listing_of_shownText ⟨_, _, _, rfl⟩ ⟨_, _, _, rfl⟩).2
    ⟨hclient, rfl, rfl, by decide +kernel, .inl rfl, hsuccess⟩
    ⟨hclient', rfl, rfl, by decide +kernel, .inr rfl, hsuccess'⟩ (hshown.trans hshown'.symm)⟩

end Shared

end VirtualShell
