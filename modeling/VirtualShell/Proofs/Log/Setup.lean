import VirtualShell.Log.Setup
import VirtualShell.Proofs.Host.Calls
import VirtualShell.Proofs.Host.Directories

/-!
# When the file of the log is made

Everything that settings and environment decide about a log is looked at before anything is made.  So
settings that are refused make nothing, whichever of them is refused, and neither do a log that is
switched off, one that goes to no file, and one whose file would lie in a directory of the user where
there are no such directories.
-/

namespace VirtualShell
namespace Log

/-! ### What counts -/

variable (settings : LogSettings) (environment : Environment)

/-- Whether the filter can be made: the variable names a valid one, or the level is `off`, or all
levels of single parts are directives. -/
def FilterBuilds : Prop :=
  (∃ text f, environment.value? "TERMIWEB_LOG" = some text ∧ Filter.ofText text = .ok f) ∨
    settings.level = "off" ∨
    ∀ entry ∈ settings.modules.entries, ∃ d, Directive.ofText (entry.1 ++ "=" ++ entry.2) = .ok d

/-- The text that decides on the format: the variable if it names a format, else the setting. -/
def formatText : String :=
  match environment.value? "TERMIWEB_LOG_FORMAT" with
  | some text => if text = "json" ∨ text = "text" then text else settings.format
  | none => settings.format

/-- The text that decides on the destinations: the variable if it is there, else the setting. -/
def outputText : String :=
  match environment.value? "TERMIWEB_LOG_OUTPUT" with
  | some text => text
  | none => settings.output

/-- A log is switched on, all of its settings are valid, and it goes to a file. -/
structure NeedsFile : Prop where
  enabled : settings.enabled = true
  filter : FilterBuilds settings environment
  format : formatText settings environment ∈ ["json", "text"]
  output : outputText settings environment ∈ ["file", "file+stderr"]

/-- A log that needs a file, and the file that is chosen for it. -/
def OpensFile (place : Surroundings) (path : String) : Prop :=
  NeedsFile settings place.environment ∧ filePath place none settings.file = .ok path

/-- Whether a fault is one of the settings, and not one of the machine. -/
def SetupFault.refuses : SetupFault → Bool
  | .directive _ | .format _ | .output _ => true
  | .directories _ | .directory _ | .file _ _ | .installed => false

/-! ### The decisions -/

theorem foldlM_addModule_isOk_iff (f : Filter) (entries : List (String × String)) :
    (∃ f', entries.foldlM addModule f = .ok f') ↔
      ∀ entry ∈ entries, ∃ d, Directive.ofText (entry.1 ++ "=" ++ entry.2) = .ok d := by
  induction entries generalizing f with
  | nil => simp [List.foldlM, pure, Except.pure]
  | cons entry entries ih =>
      rw [List.foldlM_cons, List.forall_mem_cons, addModule]
      cases hentry : Directive.ofText (entry.1 ++ "=" ++ entry.2) with
      | error fault => simp [bind, Except.bind]
      | ok d => simpa [bind, Except.bind] using ih (f.add d)

theorem settingsFilter_isOk_iff :
    (∃ f, settingsFilter settings = .ok f) ↔ settings.level = "off" ∨
      ∀ entry ∈ settings.modules.entries, ∃ d,
        Directive.ofText (entry.1 ++ "=" ++ entry.2) = .ok d := by
  rw [settingsFilter]
  by_cases hoff : settings.level = "off"
  · rw [if_pos hoff]
    exact iff_of_true ⟨_, rfl⟩ (.inl hoff)
  · rw [if_neg hoff, foldlM_addModule_isOk_iff, or_iff_right hoff]

theorem filter_isOk_iff :
    (∃ f, filter settings environment = .ok f) ↔ FilterBuilds settings environment := by
  rw [filter, environmentFilter?, FilterBuilds, ← settingsFilter_isOk_iff]
  cases henvironment : environment.value? "TERMIWEB_LOG" with
  | none => simp
  | some text =>
      dsimp only
      cases htext : Filter.ofText text with
      | ok f => simp [htext, Except.toOption]
      | error fault => simp [htext, Except.toOption]

theorem formatName?_isSome_iff (s : String) :
    (∃ name, formatName? s = some name) ↔ s ∈ ["json", "text"] := by
  rw [formatName?]
  by_cases hjson : s = "json"
  · simp [hjson]
  · by_cases htext : s = "text" <;> simp [hjson, htext]

/-- What the text that decides on the format names is the format. -/
theorem format_eq :
    format settings environment =
      match formatName? (formatText settings environment) with
      | some name => .ok name
      | none => .error (.format settings.format) := by
  rw [format, formatText]
  cases environment.value? "TERMIWEB_LOG_FORMAT" with
  | none => rfl
  | some text =>
      rw [Option.bind_some]
      by_cases hnamed : text = "json" ∨ text = "text"
      · obtain ⟨name, hname⟩ := (formatName?_isSome_iff text).mpr (by simpa using hnamed)
        simp only [if_pos hnamed, hname]
      · have hnone : formatName? text = none := by
          rw [Option.eq_none_iff_forall_ne_some]
          intro name hname
          exact hnamed (by simpa using (formatName?_isSome_iff text).mp ⟨name, hname⟩)
        cases hformat : formatName? settings.format <;>
          simp only [if_neg hnamed, hnone, hformat]

theorem format_isOk_iff :
    (∃ name, format settings environment = .ok name) ↔
      formatText settings environment ∈ ["json", "text"] := by
  rw [format_eq, ← formatName?_isSome_iff]
  cases formatName? (formatText settings environment) <;> simp

theorem destinations?_file_iff (s : String) :
    (∃ d, destinations? s = some d ∧ d.file = true) ↔ s ∈ ["file", "file+stderr"] := by
  unfold destinations?
  split <;> simp_all

theorem destinations_file_iff :
    (∃ d, destinations settings environment = .ok d ∧ d.file = true) ↔
      outputText settings environment ∈ ["file", "file+stderr"] := by
  have htext : outputText settings environment =
      (environment.value? "TERMIWEB_LOG_OUTPUT").getD settings.output := by
    rw [outputText]
    cases environment.value? "TERMIWEB_LOG_OUTPUT" <;> rfl
  rw [destinations, ← htext, ← destinations?_file_iff]
  cases destinations? (outputText settings environment) <;> simp

/-- The decisions for a log in a file are made exactly if all that they go by is valid. -/
theorem plan_file_iff :
    (∃ p, plan settings environment = .ok p ∧ p.destinations.file = true) ↔
      FilterBuilds settings environment ∧ formatText settings environment ∈ ["json", "text"] ∧
        outputText settings environment ∈ ["file", "file+stderr"] := by
  rw [plan, ← filter_isOk_iff, ← format_isOk_iff, ← destinations_file_iff]
  cases filter settings environment with
  | error fault => simp [bind, Except.bind]
  | ok f =>
      cases format settings environment with
      | error fault => simp [bind, Except.bind]
      | ok name =>
          cases destinations settings environment with
          | error fault => simp [bind, Except.bind]
          | ok d => simp [bind, Except.bind, pure, Except.pure]

section FilePath

variable {place : Surroundings} {given setting : Option String}

/-- The file is the one given with the command, or else the one that the variable names, or else the
one of the settings, an empty text naming none.  If there is none of these it is one in the state
directory. -/
theorem filePath_eq_ok_iff {path : String} :
    filePath place given setting = .ok path ↔
      (path ≠ "" ∧ ∃ before after,
        [given, place.environment.value? "TERMIWEB_LOG_FILE", setting] =
          before ++ some path :: after ∧ ∀ text? ∈ before, ¬ IsGiven text?) ∨
      (∀ text? ∈ [given, place.environment.value? "TERMIWEB_LOG_FILE", setting],
        ¬ IsGiven text?) ∧
      ∃ directory, Directories.state place = .ok directory ∧
        path = NativePath.join directory "termiweb.log" := by
  rw [← firstGiven_eq_some_iff, ← firstGiven_eq_none_iff, filePath]
  cases firstGiven [given, place.environment.value? "TERMIWEB_LOG_FILE", setting] with
  | some text => simp
  | none =>
      cases Directories.state place with
      | error fault => simp [bind, Except.bind]
      | ok directory => simp [bind, Except.bind, pure, Except.pure, eq_comm]

/-- There is no file if nothing names one and there is no home directory, and only then. -/
theorem filePath_eq_error_iff {fault : Directories.Fault} :
    filePath place given setting = .error fault ↔
      ∀ text? ∈ [given, place.environment.value? "TERMIWEB_LOG_FILE", setting,
        place.environment.value? "HOME", place.systemHome], ¬ IsGiven text? := by
  have hnone : (∀ text? ∈ [given, place.environment.value? "TERMIWEB_LOG_FILE", setting,
        place.environment.value? "HOME", place.systemHome], ¬ IsGiven text?) ↔
      firstGiven [given, place.environment.value? "TERMIWEB_LOG_FILE", setting] = none ∧
        Directories.state place = .error fault := by
    rw [firstGiven_eq_none_iff, Directories.state, Directories.named_eq_error_iff]
    simp [and_assoc]
  rw [hnone, filePath]
  cases firstGiven [given, place.environment.value? "TERMIWEB_LOG_FILE", setting] with
  | some text => simp
  | none =>
      cases Directories.state place with
      | error other => simp [bind, Except.bind]
      | ok directory => simp [bind, Except.bind, pure, Except.pure]

end FilePath

/-! ### What is made -/

/-- The calls that make the directories above a path. -/
def callsAbove (path : String) : List HostCall :=
  ((NativePath.parent? path).map .createDirectories).toList

section Makings

variable (place : Surroundings) {μ : Type} (answer : μ → (c : HostCall) → c.Answer × μ) (m : μ)

theorem makings_openAt (path : String) :
    (openAt path).makings answer m = [.openLog path] ∧
      ∀ fault, ((openAt path).run answer m).1 = .error fault → ∃ cause, fault = .file path cause := by
  have hcall : openAt path = .call (.openLog path) fun opened =>
      match opened with
      | .error cause => .done (.error (.file path cause))
      | .ok () => .done (.ok ()) :=
    congrArg (HostTask.call _) (funext fun opened => by cases opened <;> rfl)
  rw [hcall, HostTask.makings, HostTask.run]
  cases (answer m (.openLog path)).1 with
  | error cause => exact ⟨rfl, fun fault hfault => ⟨cause, (Except.error.inj hfault).symm⟩⟩
  | ok _ => exact ⟨rfl, fun fault hfault => by cases hfault⟩

/-- Opening a file ends with the directories above it if they cannot be made.  Where nothing is above
it, nothing stands in its way. -/
theorem makings_openFile (path : String) :
    (∃ directory cause, NativePath.parent? path = some directory ∧
      (openFile path).makings answer m = [.createDirectories directory] ∧
      ((openFile path).run answer m).1 = .error (.directory cause)) ∨
    (openFile path).makings answer m = callsAbove path ++ [.openLog path] ∧
      ∀ fault, ((openFile path).run answer m).1 = .error fault →
        ∃ cause, fault = .file path cause := by
  cases habove : NativePath.parent? path with
  | none =>
      have hcalls : callsAbove path = [] := by rw [callsAbove, habove]; rfl
      have hopen : openFile path = openAt path := by rw [openFile, createAbove, habove]; rfl
      rw [hcalls, hopen]
      exact .inr (makings_openAt answer m path)
  | some directory =>
      have hcalls : callsAbove path = [.createDirectories directory] := by
        rw [callsAbove, habove]
        rfl
      have hopen : openFile path = .call (.createDirectories directory) fun made =>
          match made with
          | .error cause => .done (.error (.directory cause))
          | .ok () => openAt path := by
        rw [openFile, createAbove, habove]
        exact congrArg (HostTask.call _) (funext fun made => by cases made <;> rfl)
      rw [hcalls, hopen, HostTask.makings, HostTask.run]
      cases (answer m (.createDirectories directory)).1 with
      | error cause => exact .inl ⟨directory, cause, rfl, rfl, rfl⟩
      | ok _ =>
          obtain ⟨hmakings, hfaults⟩ :=
            makings_openAt answer (answer m (.createDirectories directory)).2 path
          refine .inr ⟨?_, hfaults⟩
          exact congrArg ([HostCall.createDirectories directory] ++ ·) hmakings

/-- What goes wrong with a file is a fault of the machine. -/
theorem refuses_openFile (path : String) {fault : SetupFault}
    (hrun : ((openFile path).run answer m).1 = .error fault) : fault.refuses = false := by
  rcases makings_openFile answer m path with ⟨-, cause, -, -, hcause⟩ | ⟨-, hcause⟩
  · obtain rfl := Except.error.inj (hcause.symm.trans hrun)
    rfl
  · obtain ⟨cause, rfl⟩ := hcause fault hrun
    rfl

section Plan

variable {settings place} {p : Plan}

theorem carryOut_of_no_file (hfile : ¬ p.destinations.file = true) :
    p.carryOut settings place = .done (.ok (p.logger settings.color none)) := by
  rw [Plan.carryOut, if_neg hfile]
  rfl

theorem carryOut_of_error {fault : Directories.Fault} (hfile : p.destinations.file = true)
    (hpath : filePath place none settings.file = .error fault) :
    p.carryOut settings place = .done (.error (.directories fault)) := by
  rw [Plan.carryOut, if_pos hfile, hpath]
  rfl

/-- A plan for a file opens the file that is chosen and does nothing else. -/
theorem carryOut_of_ok {path : String} (hfile : p.destinations.file = true)
    (hpath : filePath place none settings.file = .ok path) :
    (p.carryOut settings place).makings answer m = (openFile path).makings answer m ∧
      ((p.carryOut settings place).run answer m).1 =
        ((openFile path).run answer m).1.map fun _ => p.logger settings.color (some path) := by
  rw [Plan.carryOut, if_pos hfile, hpath]
  constructor
  · refine (HostTask.makings_bind answer _ _ m).trans ?_
    cases ((openFile path).run answer m).1 <;> exact List.append_nil _
  · refine (congrArg Prod.fst (HostTask.run_bind answer _ _ m)).trans ?_
    cases ((openFile path).run answer m).1 <;> rfl

end Plan

/-- Once the user was told what was passed over, a log that is switched on is what its plan says. -/
theorem prepare_eq :
    ∃ m', (prepare settings place).makings answer m =
        (if settings.enabled then
          match plan settings place.environment with
          | .error _ => []
          | .ok p => (p.carryOut settings place).makings answer m'
        else []) ∧
      ((prepare settings place).run answer m).1 =
        if settings.enabled then
          match plan settings place.environment with
          | .error fault => .error fault
          | .ok p => ((p.carryOut settings place).run answer m').1
        else .ok .silent := by
  refine ⟨((HostTask.warn (complaints settings place.environment)).run answer m).2, ?_⟩
  rw [prepare]
  by_cases henabled : settings.enabled = true
  · rw [if_pos henabled, if_pos henabled, if_pos henabled]
    constructor
    · refine (HostTask.makings_bind answer _ _ m).trans ?_
      rw [HostTask.makings_warn, List.nil_append]
      cases plan settings place.environment <;> rfl
    · refine (congrArg Prod.fst (HostTask.run_bind answer _ _ m)).trans ?_
      cases plan settings place.environment <;> rfl
  · rw [if_neg henabled, if_neg henabled, if_neg henabled]
    exact ⟨rfl, rfl⟩

/-- Whether there is a log already is looked at last. -/
theorem setup_eq (already : Bool) :
    (setup settings place already).makings answer m = (prepare settings place).makings answer m ∧
      ((setup settings place already).run answer m).1 =
        match ((prepare settings place).run answer m).1 with
        | .error fault => .error fault
        | .ok logger => if already then .error .installed else .ok logger := by
  rw [setup]
  constructor
  · refine (HostTask.makings_bind answer _ _ m).trans ?_
    cases ((prepare settings place).run answer m).1 <;> exact List.append_nil _
  · refine (congrArg Prod.fst (HostTask.run_bind answer _ _ m)).trans ?_
    cases ((prepare settings place).run answer m).1 <;> rfl

/-- A log that needs a file comes to a plan for a file, and to nothing else. -/
theorem setup_of_needsFile (hneeds : NeedsFile settings place.environment) (already : Bool) :
    ∃ (m' : μ) (p : Plan), p.destinations.file = true ∧
      (setup settings place already).makings answer m =
        (p.carryOut settings place).makings answer m' ∧
      ((setup settings place already).run answer m).1 =
        match ((p.carryOut settings place).run answer m').1 with
        | .error fault => .error fault
        | .ok logger => if already then .error .installed else .ok logger := by
  obtain ⟨p, hplan, hfile⟩ := (plan_file_iff settings place.environment).mpr
    ⟨hneeds.filter, hneeds.format, hneeds.output⟩
  obtain ⟨m', hmakings, hrun⟩ := prepare_eq settings place answer m
  obtain ⟨hsetup, hresult⟩ := setup_eq settings place answer m already
  rw [if_pos hneeds.enabled, hplan] at hmakings hrun
  exact ⟨m', p, hfile, hsetup.trans hmakings, by rw [hresult, hrun]⟩

/-- Setting up a log that opens a file comes to opening the file. -/
theorem setup_of_opensFile {path : String} (hopens : OpensFile settings place path)
    (already : Bool) :
    ∃ (m' : μ) (logger : Logger),
      (setup settings place already).makings answer m = (openFile path).makings answer m' ∧
      ((setup settings place already).run answer m).1 =
        match ((openFile path).run answer m').1 with
        | .error fault => .error fault
        | .ok () => if already then .error .installed else .ok logger := by
  obtain ⟨m', p, hfile, hmakings, hresult⟩ :=
    setup_of_needsFile settings place answer m hopens.1 already
  obtain ⟨hcarried, hcarry⟩ := carryOut_of_ok answer m' hfile hopens.2
  refine ⟨m', p.logger settings.color (some path), hmakings.trans hcarried, ?_⟩
  rw [hresult, hcarry]
  cases ((openFile path).run answer m').1 <;> rfl

/-- A log that needs a file has none if no file is named and there are no directories of the user. -/
theorem setup_of_filePath_eq_error {fault : Directories.Fault}
    (hneeds : NeedsFile settings place.environment)
    (hpath : filePath place none settings.file = .error fault) (already : Bool) :
    (setup settings place already).makings answer m = [] ∧
      ((setup settings place already).run answer m).1 = .error (.directories fault) := by
  obtain ⟨m', p, hfile, hmakings, hresult⟩ :=
    setup_of_needsFile settings place answer m hneeds already
  rw [carryOut_of_error hfile hpath] at hmakings hresult
  exact ⟨hmakings, hresult⟩

/-- Setting up a log that needs no file makes nothing. -/
theorem makings_setup_of_not_needsFile (hneeds : ¬ NeedsFile settings place.environment)
    (already : Bool) : (setup settings place already).makings answer m = [] := by
  obtain ⟨m', hmakings, -⟩ := prepare_eq settings place answer m
  rw [(setup_eq settings place answer m already).1, hmakings]
  by_cases henabled : settings.enabled = true
  · rw [if_pos henabled]
    cases hplan : plan settings place.environment with
    | error fault => rfl
    | ok p =>
        have hfile : ¬ p.destinations.file = true := fun hfile => by
          obtain ⟨hfilter, hformat, houtput⟩ :=
            (plan_file_iff settings place.environment).mp ⟨p, hplan, hfile⟩
          exact hneeds ⟨henabled, hfilter, hformat, houtput⟩
        dsimp only
        rw [carryOut_of_no_file hfile]
        rfl
  · rw [if_neg henabled]

/-- Setting up a log that opens no file makes nothing. -/
theorem makings_setup_of_not_opensFile (hopens : ∀ path, ¬ OpensFile settings place path)
    (already : Bool) : (setup settings place already).makings answer m = [] := by
  by_cases hneeds : NeedsFile settings place.environment
  · cases hpath : filePath place none settings.file with
    | error fault => exact (setup_of_filePath_eq_error settings place answer m hneeds hpath already).1
    | ok path => exact absurd ⟨hneeds, hpath⟩ (hopens path)
  · exact makings_setup_of_not_needsFile settings place answer m hneeds already

/-- Settings that are refused need no file. -/
theorem not_needsFile_of_refuses {already : Bool} {fault : SetupFault}
    (hrun : ((setup settings place already).run answer m).1 = .error fault)
    (hrefuses : fault.refuses = true) : ¬ NeedsFile settings place.environment := by
  intro hneeds
  cases hpath : filePath place none settings.file with
  | error missing =>
      rw [(setup_of_filePath_eq_error settings place answer m hneeds hpath already).2] at hrun
      obtain rfl := Except.error.inj hrun
      cases hrefuses
  | ok path =>
      obtain ⟨m', logger, -, hresult⟩ :=
        setup_of_opensFile settings place answer m ⟨hneeds, hpath⟩ already
      rw [hresult] at hrun
      cases hopen : ((openFile path).run answer m').1 with
      | error other =>
          rw [hopen] at hrun
          obtain rfl := Except.error.inj hrun
          rw [refuses_openFile answer m' path hopen] at hrefuses
          cases hrefuses
      | ok _ =>
          rw [hopen] at hrun
          cases already with
          | true =>
              obtain rfl := Except.error.inj hrun
              cases hrefuses
          | false => cases hrun

/-- On every machine, setting up a log makes something only if the log is switched on, its filter
builds, its format is one, it goes to a file, and there is such a file: the directories above the file
that is chosen, if any are above it, and then the file, if the directories could be made. Otherwise
nothing is made, and a disk stays as it is but for lines to the user. In particular this is so whenever
a directive, the format or the destinations are refused, and where no file is named and the user has no
home directory. -/
theorem makings_setup (already : Bool) :
    (∀ path, OpensFile settings place path →
      (∃ directory cause, NativePath.parent? path = some directory ∧
        (setup settings place already).makings answer m = [.createDirectories directory] ∧
        ((setup settings place already).run answer m).1 = .error (.directory cause)) ∨
      (setup settings place already).makings answer m = callsAbove path ++ [.openLog path]) ∧
    ((∀ path, ¬ OpensFile settings place path) →
      (setup settings place already).makings answer m = [] ∧
      ∀ d : Disk, ∃ lines, ((setup settings place already).run Disk.answer d).2 =
        { d with warnings := d.warnings ++ lines }) ∧
    (∀ fault, ((setup settings place already).run answer m).1 = .error fault →
      fault.refuses = true → ¬ NeedsFile settings place.environment) ∧
    (NeedsFile settings place.environment →
      (∀ text? ∈ [place.environment.value? "TERMIWEB_LOG_FILE", settings.file,
        place.environment.value? "HOME", place.systemHome], ¬ IsGiven text?) →
      (∀ path, ¬ OpensFile settings place path) ∧
        ((setup settings place already).run answer m).1 = .error (.directories .noHome)) := by
  refine ⟨fun path hopens => ?_, fun hopens => ⟨?_, fun d => ?_⟩,
    fun fault => not_needsFile_of_refuses settings place answer m, fun hneeds hblank => ?_⟩
  · obtain ⟨m', logger, hmakings, hresult⟩ :=
      setup_of_opensFile settings place answer m hopens already
    rcases makings_openFile answer m' path with
      ⟨directory, cause, habove, hopen, hcause⟩ | ⟨hopen, -⟩
    · rw [hcause] at hresult
      exact .inl ⟨directory, cause, habove, hmakings.trans hopen, hresult⟩
    · exact .inr (hmakings.trans hopen)
  · exact makings_setup_of_not_opensFile settings place answer m hopens already
  · exact HostTask.run_disk_of_makings_eq_nil
      (makings_setup_of_not_opensFile settings place Disk.answer d hopens already)
  · have hpath : filePath place none settings.file = .error .noHome := by
      rw [filePath_eq_error_iff, List.forall_mem_cons]
      exact ⟨not_isGiven_none, hblank⟩
    refine ⟨fun path hopens => ?_,
      (setup_of_filePath_eq_error settings place answer m hneeds hpath already).2⟩
    rw [OpensFile, hpath] at hopens
    cases hopens.2

-- a variable that names no format does not count, and one that names no destinations is refused
example :
    (setup {} ⟨[("HOME", "/h"), ("TERMIWEB_LOG_FORMAT", "xml")], none, "/"⟩ false).makings
        Disk.answer (.empty []) =
      [.createDirectories "/h/.local/state/termiweb",
        .openLog "/h/.local/state/termiweb/termiweb.log"] ∧
    (setup {} ⟨[("HOME", "/h"), ("TERMIWEB_LOG_OUTPUT", "nowhere")], none, "/"⟩ false).makings
        Disk.answer (.empty []) = [] := by
  decide +kernel

end Makings

end Log
end VirtualShell
