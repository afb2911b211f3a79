import VirtualShell.Proofs.Session.Steady
import VirtualShell.Proofs.Shell.Decoration
import VirtualShell.Proofs.Shell.InputLines
import VirtualShell.Shell.Interactive

/-!
# Lines and prompts with and without colours

The same line, or prompt, is run in two shells of which only one has colours.  A command asks for
the palette only to paint what it writes, and never looks at what it wrote.  So the two go in step:
they make the same calls, and what the one puts out is what the other puts out with colour codes in
it.
-/

namespace VirtualShell

open Text (Painted painted_refl)

/-- Outputs that are the same but for colour codes in a text. -/
inductive Output.Painted (allowed : Char → Prop) : Output → Output → Prop
  | text {s t : String} (h : Text.Painted allowed s t) : Painted allowed (.text s) (.text t)
  | clear : Painted allowed .clear .clear
  | event (e : Log.Event) : Painted allowed (.event e) (.event e)

/-- Two routines of which the first one puts colour codes into the texts. -/
def Accord.painting (allowed : Char → Prop) (hallowed : ∀ c, c ≠ '\x1b' → allowed c) : Accord where
  allowed := allowed
  pairs := Output.Painted allowed
  allowed_of_ne := hallowed
  pairs_event := .event

/-- Outputs that are the same but for colour codes go together. -/
structure Accord.Paints (A : Accord) : Prop where
  text {s t : String} (h : Painted A.allowed s t) : A.pairs (.text s) (.text t)
  clear : A.pairs .clear .clear

theorem Accord.paints_painting (allowed : Char → Prop) (hallowed : ∀ c, c ≠ '\x1b' → allowed c) :
    (Accord.painting allowed hallowed).Paints :=
  ⟨.text, .clear⟩

/-! ### Texts that commands write -/

namespace Accord

variable {A : Accord}

theorem allows_ofList {cs : List Char} (hcs : ∀ c ∈ cs, A.allowed c) :
    A.Allows (String.ofList cs) := by
  rwa [Allows, String.toList_ofList]

theorem allows_replicate {c : Char} (hc : A.allowed c) (n : Nat) :
    A.Allows (String.ofList (List.replicate n c)) :=
  allows_ofList fun _ hd => List.eq_of_mem_replicate hd ▸ hc

theorem allows_intercalate {gap : String} (hgap : A.Allows gap) {ss : List String}
    (hss : ∀ s ∈ ss, A.Allows s) : A.Allows (gap.intercalate ss) := by
  induction ss with
  | nil => exact allows_of_notMem (by simp)
  | cons s ss ih =>
      rw [List.forall_mem_cons] at hss
      cases ss with
      | nil => rw [String.intercalate_singleton]; exact hss.1
      | cons next ss =>
          rw [String.intercalate_cons_cons]
          exact allows_append (allows_append hss.1 hgap) (ih hss.2)

theorem allows_padded {cell : String} (hcell : A.Allows cell) (width : Nat) :
    A.Allows (Table.padded width cell) := by
  have hblank : A.Allows " " := allows_of_notMem (by decide)
  exact allows_append (allows_append (allows_append hblank hcell)
    (allows_replicate (A.allowed_of_ne _ (by decide)) _)) hblank

theorem allows_row {cells : List String} (hcells : ∀ cell ∈ cells, A.Allows cell)
    (widths : List Nat) : A.Allows (Table.row widths cells) := by
  have hside : A.Allows "│" := allows_of_notMem (by decide)
  have hblank : A.Allows " " := allows_of_notMem (by decide)
  refine allows_append (allows_append hside (allows_intercalate hblank fun s hs => ?_)) hside
  obtain ⟨⟨width, cell⟩, hmem, rfl⟩ := List.mem_map.mp hs
  exact allows_padded (hcells cell (List.of_mem_zip hmem).2) width

theorem allows_rule {left line right : Char} (hleft : A.allowed left) (hline : A.allowed line)
    (hright : A.allowed right) (widths : List Nat) :
    A.Allows (Table.rule widths left line right) := by
  refine allows_ofList fun c hc => ?_
  rw [List.mem_append, List.mem_append, List.mem_singleton, List.mem_singleton] at hc
  rcases hc with (rfl | hc) | rfl
  · exact hleft
  · exact List.eq_of_mem_replicate hc ▸ hline
  · exact hright

theorem allows_lines {heading : List String} {rows : List (List String)}
    (hheading : ∀ cell ∈ heading, A.Allows cell)
    (hrows : ∀ cells ∈ rows, ∀ cell ∈ cells, A.Allows cell) :
    ∀ line ∈ Table.lines heading rows, A.Allows line := by
  have hrule {left line right : Char} (hleft : left ≠ '\x1b') (hline : line ≠ '\x1b')
      (hright : right ≠ '\x1b') (widths : List Nat) :
      A.Allows (Table.rule widths left line right) :=
    allows_rule (A.allowed_of_ne _ hleft) (A.allowed_of_ne _ hline) (A.allowed_of_ne _ hright) _
  intro line hline
  rw [Table.lines, List.mem_append, List.mem_append, List.mem_map] at hline
  rcases hline with (hline | ⟨cells, hcells, rfl⟩) | hline
  · simp only [List.mem_cons, List.not_mem_nil, or_false] at hline
    rcases hline with rfl | rfl | rfl
    · exact hrule (by decide) (by decide) (by decide) _
    · exact allows_row hheading _
    · exact hrule (by decide) (by decide) (by decide) _
  · exact allows_row (hrows cells hcells) _
  · obtain rfl := List.mem_singleton.mp hline
    exact hrule (by decide) (by decide) (by decide) _

theorem allows_fixedText (places numerator denominator : Nat) :
    A.Allows (Decimal.fixedText places numerator denominator) := by
  refine allows_append (allows_append (allows_toString _) (allows_of_notMem (by decide))) ?_
  refine allows_of_isDigit fun c hc => ?_
  rcases List.mem_append.mp hc with hc | hc
  · rw [List.eq_of_mem_replicate hc]
    decide
  · exact Nat.isDigit_of_mem_toDigits (by decide) (by decide) hc

theorem allows_byteSize (n : Nat) : A.Allows (ByteSize.text n) := by
  have hunit (value : Nat) : A.Allows (ByteSize.unit value).1 := by
    unfold ByteSize.unit
    split_ifs <;> exact allows_of_notMem (by decide)
  have hgap : A.Allows " " := allows_of_notMem (by decide)
  rw [ByteSize.text]
  dsimp only
  split
  · exact allows_append (allows_append (allows_toString n) hgap) (hunit _)
  · exact allows_append (allows_append (allows_fixedText _ _ _) hgap) (hunit _)

theorem allows_usageLines (usage : Usage) :
    ∀ line ∈ Command.usageLines usage, A.Allows line := by
  have hheading : ∀ cell ∈ ["Filesystem", "Used", "Quota", "Use%"], '\x1b' ∉ cell.toList := by
    decide
  have hname : A.Allows "termiweb" := allows_of_notMem (by decide)
  have hpercent : A.Allows s!"{usage.percent}%" :=
    allows_append (allows_toString usage.percent) (allows_of_notMem (by decide))
  refine allows_lines (fun cell hcell => allows_of_notMem (hheading cell hcell)) ?_
  simp only [List.forall_mem_cons]
  exact ⟨⟨hname, allows_byteSize _, allows_byteSize _, hpercent, by simp⟩, by simp⟩

end Accord

/-! ### Painted texts -/

namespace Command

variable {A : Accord}

/-- A text that a palette does not paint. -/
theorem painted_plain {s : String} (hs : '\x1b' ∉ s.toList) : Painted A.allowed s s :=
  painted_refl (Accord.allows_of_notMem hs)

/-- A text that a palette paints. -/
theorem painted_role (role : Role) {s : String} (hs : '\x1b' ∉ s.toList) :
    Painted A.allowed (Palette.paint ⟨true⟩ role s) (Palette.paint ⟨false⟩ role s) :=
  Palette.painted_paint role (painted_plain hs)

theorem painted_entryText {entry : Entry} (hname : A.Allows entry.name) :
    Painted A.allowed (entryText ⟨true⟩ entry) (entryText ⟨false⟩ entry) := by
  have hslash : A.Allows "/" := Accord.allows_of_notMem (by decide)
  rw [entryText, entryText]
  cases entry.kind with
  | directory => exact Palette.painted_paint _ (painted_refl (Accord.allows_append hname hslash))
  | file => exact Palette.painted_paint _ (painted_refl hname)

theorem painted_listingText {entries : List Entry}
    (hnames : ∀ entry ∈ entries, A.Allows entry.name) :
    Painted A.allowed (listingText ⟨true⟩ entries) (listingText ⟨false⟩ entries) := by
  rw [listingText, listingText]
  split
  · exact painted_plain (by decide)
  · have hgap : A.Allows "    " := Accord.allows_of_notMem (by decide)
    refine Text.painted_intercalate hgap ?_
    rw [List.forall₂_map_left_iff, List.forall₂_map_right_iff, List.forall₂_same]
    exact fun entry hentry => painted_entryText (hnames entry hentry)

theorem painted_helpLines :
    List.Forall₂ (Painted A.allowed) (helpLines ⟨true⟩) (helpLines ⟨false⟩) := by
  simp only [helpLines, List.forall₂_cons, List.Forall₂.nil, and_true]
  exact ⟨painted_role _ (by decide), painted_plain (by decide), painted_role _ (by decide),
    painted_plain (by decide), painted_plain (by decide), painted_plain (by decide),
    painted_plain (by decide), painted_plain (by decide), painted_plain (by decide),
    painted_plain (by decide), painted_plain (by decide), painted_role _ (by decide),
    painted_plain (by decide), painted_plain (by decide), painted_plain (by decide),
    painted_plain (by decide), painted_plain (by decide)⟩

theorem painted_systemLines :
    List.Forall₂ (Painted A.allowed) (systemLines ⟨true⟩) (systemLines ⟨false⟩) := by
  have hentry {title text : String} (htitle : '\x1b' ∉ title.toList)
      (htext : '\x1b' ∉ text.toList) :
      Painted A.allowed (Palette.paint ⟨true⟩ .heading title ++ text)
        (Palette.paint ⟨false⟩ .heading title ++ text) :=
    (painted_role _ htitle).append (painted_plain htext)
  simp only [systemLines, List.forall₂_cons, List.Forall₂.nil, and_true]
  exact ⟨painted_role _ (by decide), painted_role _ (by decide), hentry (by decide) (by decide),
    hentry (by decide) (by decide), hentry (by decide) (by decide), hentry (by decide) (by decide),
    hentry (by decide) (by decide), hentry (by decide) (by decide), hentry (by decide) (by decide)⟩

/-- Painted lines beside painted pictures. -/
theorem painted_zipWith {pictures : List String}
    (hpictures : ∀ picture ∈ pictures, '\x1b' ∉ picture.toList) {infos infos' : List String}
    (hinfos : List.Forall₂ (Painted A.allowed) infos infos') :
    List.Forall₂ (Painted A.allowed)
      (List.zipWith (fun picture info => Palette.paint ⟨true⟩ .file picture ++ "    " ++ info)
        pictures infos)
      (List.zipWith (fun picture info => Palette.paint ⟨false⟩ .file picture ++ "    " ++ info)
        pictures infos') := by
  induction hinfos generalizing pictures with
  | nil => simp
  | cons hfirst _ ih =>
      cases pictures with
      | nil => simp
      | cons picture pictures =>
          rw [List.forall_mem_cons] at hpictures
          have hgap : Painted A.allowed "    " "    " := painted_plain (by decide)
          exact .cons (((painted_role .file hpictures.1).append hgap).append hfirst)
            (ih hpictures.2)

theorem painted_pictureLines :
    List.Forall₂ (Painted A.allowed) (pictureLines ⟨true⟩) (pictureLines ⟨false⟩) :=
  painted_zipWith (by decide) painted_systemLines

end Command

namespace Shell

/-- The shell with colours, or without them. -/
def withColor (shell : Shell) (color : Bool) : Shell :=
  { shell with palette := ⟨color⟩ }

variable {A : Accord} (shell : Shell)

theorem painted_promptText (huser : A.Allows shell.user) (hhost : A.Allows shell.host)
    {cwd : String} (hcwd : A.Allows cwd) :
    Painted A.allowed ((shell.withColor true).promptText cwd)
      ((shell.withColor false).promptText cwd) := by
  have hat : A.Allows "@" := Accord.allows_of_notMem (by decide)
  have hnames := Accord.allows_append (Accord.allows_append huser hat) hhost
  exact (((Palette.painted_paint .file (painted_refl hnames)).append
    (Command.painted_plain (by decide))).append
      (Palette.painted_paint .directory (painted_refl hcwd))).append
        (Command.painted_plain (by decide))

theorem inStep_report (level : Log.Level) (message : String)
    (fields : List (String × Log.Value)) :
    Routine.InStep A (fun _ => True) (report level message fields) (report level message fields) :=
  .emit (A.pairs_event _) (.done trivial)

end Shell

/-! ### Writing in step -/

section

variable {A : Accord} (hA : A.Paints)

include hA

namespace Routine

theorem inStep_write {s t : String} (h : Painted A.allowed s t) :
    InStep A (fun _ => True) (write s) (write t) :=
  .emit (hA.text h) (.done trivial)

theorem inStep_writeLine {s t : String} (h : Painted A.allowed s t) :
    InStep A (fun _ => True) (writeLine s) (writeLine t) := by
  have hend : A.Allows lineEnd := Accord.allows_of_notMem (by decide)
  exact (inStep_write hA h).bind fun _ _ => inStep_write hA (painted_refl hend)

theorem inStep_writeError {s : String} (hs : A.Allows s) :
    InStep A (fun _ => True) (writeError ⟨true⟩ s) (writeError ⟨false⟩ s) :=
  inStep_writeLine hA (Palette.painted_paint .error (painted_refl hs))

theorem inStep_writeLines {ss ts : List String} (h : List.Forall₂ (Painted A.allowed) ss ts) :
    InStep A (fun _ => True) (Command.writeLines ss) (Command.writeLines ts) := by
  induction h with
  | nil => exact .done trivial
  | cons hfirst _ ih => exact (inStep_writeLine hA hfirst).bind fun _ _ => ih

end Routine

namespace Command

open VirtualShell.Action

/-! ### Commands in step -/

theorem inStep_withOperand {usage : String} (husage : A.Allows usage) {args : List String}
    (hargs : ∀ arg ∈ args, A.Allows arg) {next next' : String → Action CommandStatus}
    (hnext : ∀ operand, A.Allows operand →
      InStep A (fun _ => True) (next operand) (next' operand)) :
    InStep A (fun _ => True) (withOperand ⟨true⟩ usage args next)
      (withOperand ⟨false⟩ usage args next') := by
  unfold withOperand
  split
  · exact hnext _ (hargs _ (List.mem_singleton_self _))
  · have hlead : A.Allows "Usage: " := Accord.allows_of_notMem (by decide)
    exact (inStep_lift (Routine.inStep_writeError hA (Accord.allows_append hlead husage))).bind
      fun _ _ => steady_pure trivial

theorem inStep_doneOr {complaint : String} (hcomplaint : A.Allows complaint) (done : Bool) :
    InStep A (fun _ => True) (doneOr ⟨true⟩ complaint done) (doneOr ⟨false⟩ complaint done) := by
  cases done with
  | true => exact steady_pure trivial
  | false =>
      exact (inStep_lift (Routine.inStep_writeError hA hcomplaint)).bind
        fun _ _ => steady_pure trivial

/-- A command does the same with and without colours. -/
theorem inStep_run (options : SessionOptions) {args : List String}
    (hargs : ∀ arg ∈ args, A.Allows arg) (command : Command) :
    InStep A (fun _ => True) (run ⟨true⟩ options args command)
      (run ⟨false⟩ options args command) := by
  have hhead {default : String} (hdefault : A.Allows default) : A.Allows (args.headD default) := by
    cases args with
    | nil => exact hdefault
    | cons arg args => exact hargs arg List.mem_cons_self
  have hliteral {s : String} (hs : '\x1b' ∉ s.toList) : A.Allows s := Accord.allows_of_notMem hs
  have hbetween {s t u : String} (hs : '\x1b' ∉ s.toList) (ht : A.Allows t)
      (hu : '\x1b' ∉ u.toList) : A.Allows (s ++ t ++ u) :=
    Accord.allows_append (Accord.allows_append (hliteral hs) ht) (hliteral hu)
  have hsuccess : InStep A (fun _ => True) (pure CommandStatus.success) (pure .success) :=
    steady_pure trivial
  have hfailure : InStep A (fun _ => True) (pure CommandStatus.failure) (pure .failure) :=
    steady_pure trivial
  cases command with
  | help =>
      exact (inStep_lift (Routine.inStep_writeLines hA painted_helpLines)).bind fun _ _ => hsuccess
  | ls =>
      refine (Session.steady_listDirectory (hhead (hliteral (by decide)))).bind
        fun listed hlisted => ?_
      cases listed with
      | none =>
          refine (inStep_lift (Routine.inStep_writeError hA ?_)).bind fun _ _ => hfailure
          exact hbetween (by decide) (hhead (hliteral (by decide))) (by decide)
      | some entries =>
          have htext := painted_listingText (hlisted entries rfl)
          exact (inStep_lift (Routine.inStep_writeLine hA htext)).bind fun _ _ => hsuccess
  | cd =>
      -- the working directory is shown whether it was changed or not
      have hshow (status : CommandStatus) : InStep A (fun _ => True)
          (do
            let cwd ← Action.cursor
            Routine.writeLine (Palette.paint ⟨true⟩ .heading ("Current directory: " ++ cwd))
            return status)
          (do
            let cwd ← Action.cursor
            Routine.writeLine (Palette.paint ⟨false⟩ .heading ("Current directory: " ++ cwd))
            return status) := by
        refine steady_cursor.bind fun cwd hcwd => ?_
        have htext : A.Allows ("Current directory: " ++ cwd) :=
          Accord.allows_append (hliteral (by decide)) hcwd
        have hpainted := Palette.painted_paint .heading (painted_refl htext)
        exact (inStep_lift (Routine.inStep_writeLine hA hpainted)).bind
          fun _ _ => steady_pure trivial
      refine (Session.steady_changeDirectory (hhead (hliteral (by decide)))).bind
        fun changed _ => ?_
      cases changed with
      | true => exact hshow .success
      | false =>
          refine (inStep_lift (Routine.inStep_writeError hA ?_)).bind fun _ _ => hshow .failure
          exact hbetween (by decide) (hhead (hliteral (by decide))) (by decide)
  | pwd =>
      exact steady_cursor.bind fun cwd hcwd =>
        (inStep_lift (Routine.inStep_writeLine hA (painted_refl hcwd))).bind fun _ _ => hsuccess
  | cat =>
      refine inStep_withOperand hA (hliteral (by decide)) hargs fun path hpath => ?_
      refine (Session.steady_fileText hpath).bind fun found hfound => ?_
      cases found with
      | none =>
          refine (inStep_lift (Routine.inStep_writeError hA ?_)).bind fun _ _ => hfailure
          exact hbetween (by decide) hpath (by decide)
      | some content =>
          have htext := painted_refl (hfound content rfl)
          exact (inStep_lift (Routine.inStep_writeLine hA htext)).bind fun _ _ => hsuccess
  | echo =>
      have hgap : A.Allows " " := hliteral (by decide)
      have htext := painted_refl (Accord.allows_intercalate hgap hargs)
      exact (inStep_lift (Routine.inStep_writeLine hA htext)).bind fun _ _ => hsuccess
  | clear =>
      have hclear : InStep A (fun _ => True) Action.clear Action.clear :=
        inStep_lift (.emit hA.clear (.done trivial))
      exact hclear.bind fun _ _ => hsuccess
  | mkdir =>
      refine inStep_withOperand hA (hliteral (by decide)) hargs fun path hpath => ?_
      refine (Session.steady_createDirectory options hpath).bind fun done _ => ?_
      exact inStep_doneOr hA (hbetween (by decide) hpath (by decide)) done
  | touch =>
      refine inStep_withOperand hA (hliteral (by decide)) hargs fun path hpath => ?_
      refine (Session.steady_touch options hpath).bind fun done _ => ?_
      exact inStep_doneOr hA (hbetween (by decide) hpath (by decide)) done
  | rm =>
      refine inStep_withOperand hA (hliteral (by decide)) hargs fun path hpath => ?_
      refine (Session.steady_delete options hpath).bind fun done _ => ?_
      exact inStep_doneOr hA (hbetween (by decide) hpath (by decide)) done
  | neofetch =>
      exact (inStep_lift (Routine.inStep_writeLines hA painted_pictureLines)).bind
        fun _ _ => hsuccess
  | df =>
      refine (Session.steady_usage options).bind fun usage _ => ?_
      have htexts : List.Forall₂ (Painted A.allowed) (usageLines usage) (usageLines usage) :=
        List.forall₂_same.mpr fun line hline =>
          painted_refl (Accord.allows_usageLines usage line hline)
      exact (inStep_lift (Routine.inStep_writeLines hA htexts)).bind fun _ _ => hsuccess

end Command

namespace Shell

variable (shell : Shell)

/-! ### Lines and prompts in step -/

theorem inStep_perform {invocation : Invocation}
    (hwords : ∀ word ∈ invocation.name :: invocation.args, A.Allows word) :
    Routine.InStep A (fun _ => True) ((shell.withColor true).perform invocation)
      ((shell.withColor false).perform invocation) := by
  obtain ⟨hname, hargs⟩ := List.forall_mem_cons.mp hwords
  have hend (outcome : Outcome) : Routine.InStep A (fun _ => True)
      (pure outcome : Routine Outcome) (pure outcome) := .done trivial
  simp only [perform, withColor]
  cases shell.registry.find? invocation.name with
  | none =>
      have hlead : A.Allows "Command not found: " := Accord.allows_of_notMem (by decide)
      have hhint : A.Allows "Type 'help' for available commands" :=
        Accord.allows_of_notMem (by decide)
      refine (inStep_report _ _ _).bind fun _ _ => ?_
      refine (Routine.inStep_writeError hA (Accord.allows_append hlead hname)).bind fun _ _ => ?_
      exact (Routine.inStep_writeLine hA (painted_refl hhint)).bind fun _ _ => hend _
  | some command =>
      refine (inStep_report _ _ _).bind fun _ _ => ?_
      -- a command that the store refused is named with the words of the store
      refine Routine.InStep.bind (Command.inStep_run hA shell.options hargs command) ?_
      rintro (e | status) hresult
      · have hlead : A.Allows ": storage failure: " := Accord.allows_of_notMem (by decide)
        refine (inStep_report _ _ _).bind fun _ _ => ?_
        exact (Routine.inStep_writeError hA
          (Accord.allows_append (Accord.allows_append hname hlead) hresult)).bind fun _ _ => hend _
      · cases status <;> exact hend _

theorem inStep_execute {line : String} (hline : A.Allows line) :
    Routine.InStep A (fun _ => True) ((shell.withColor true).execute line)
      ((shell.withColor false).execute line) := by
  unfold execute
  cases hparse : Line.parse line with
  | none => exact .done trivial
  | some invocation =>
      refine inStep_perform hA shell fun word hword c hc => ?_
      exact hline c ((Line.of_mem_parse hparse word hword).2 c hc)

theorem inStep_showPrompt (huser : A.Allows shell.user) (hhost : A.Allows shell.host) :
    Routine.InStep A (fun _ => True) (Interactive.showPrompt (shell.withColor true))
      (Interactive.showPrompt (shell.withColor false)) :=
  .call trivial fun _ hcwd =>
    Routine.inStep_write hA (painted_promptText shell huser hhost hcwd)

end Shell

end

end VirtualShell
