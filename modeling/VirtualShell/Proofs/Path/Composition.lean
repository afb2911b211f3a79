import VirtualShell.Proofs.Path.Canonical

/-!
# Following one text behind another

A text that does not name its path from the root is followed from where the texts before it have led
to.  So two texts with a separator between them mean what the second one means at the place that the
first one means: going up is stopped at the root on the way in the one case exactly where it is
stopped in the other.  This holds from every working directory, canonical or not.
-/

namespace VirtualShell
namespace Path

/-- The text names its path from the root. -/
def IsAbsolute (raw : String) : Prop :=
  raw = root ∨ ['/'] <+: raw.toList ∨ ['~', '/'] <+: raw.toList

/-- What is named from the root is the same from everywhere. -/
theorem IsAbsolute.resolve_eq {raw : String} (habsolute : IsAbsolute raw) (cwd cwd' : String) :
    resolve raw cwd = resolve raw cwd' := by
  have hstart : raw = root ∨ start raw cwd = start raw cwd' := by
    rcases habsolute with hroot | ⟨rest, hrest⟩ | ⟨rest, hrest⟩
    · exact .inl hroot
    · exact .inr (by simp [start, ← hrest])
    · exact .inr (by simp [start, ← hrest])
  rw [resolve, resolve]
  rcases hstart with rfl | hstart
  · simp only [or_true, if_true]
  · rw [hstart]

/-! ### Where a text starts -/

section Start

variable {raw : String} (cwd : String)

/-- What is not named from the root starts at the working directory. -/
theorem start_of_not_isAbsolute (hrelative : ¬ IsAbsolute raw) :
    start raw cwd = (components cwd, raw.toList) := by
  rw [IsAbsolute, not_or, not_or] at hrelative
  obtain ⟨-, hslash, htilde⟩ := hrelative
  rw [start]
  split
  · rename_i rest hraw
    exact absurd ⟨rest, hraw.symm⟩ htilde
  · rename_i rest hraw
    exact absurd ⟨rest, hraw.symm⟩ hslash
  · rfl

/-- What stands behind a separator does not change where the text before it starts. -/
theorem start_append (hempty : raw ≠ "") (hroot : raw ≠ root) (rest : String) :
    start (raw ++ "/" ++ rest) cwd =
      ((start raw cwd).1, (start raw cwd).2 ++ separator :: rest.toList) := by
  have htext : (raw ++ "/" ++ rest).toList = raw.toList ++ separator :: rest.toList := by
    simp [separator]
  have hnil : raw.toList ≠ [] := fun hnil => hempty (String.toList_inj.mp hnil)
  have htilde : raw.toList ≠ ['~'] := fun htilde => hroot (String.toList_inj.mp htilde)
  rw [start, start, htext]
  -- the start is settled by the first two characters, which the text has if the first one is `~`
  cases hraw : raw.toList with
  | nil => exact absurd hraw hnil
  | cons c cs =>
      by_cases hslash : c = '/'
      · subst hslash
        rfl
      · by_cases hc : c = '~'
        · subst hc
          cases cs with
          | nil => exact absurd hraw htilde
          | cons d cs =>
              by_cases hd : d = '/'
              · subst hd
                rfl
              · simp [hd]
        · simp [hslash, hc]

theorem isSolid_of_mem_start {part : List Char} (hpart : part ∈ (start raw cwd).1) :
    IsSolid part := by
  rw [start] at hpart
  split at hpart
  · cases hpart
  · cases hpart
  · exact isSolid_of_mem_components hpart

end Start

/-! ### Where a text leads to -/

/-- The components that a text leads to. -/
def landing (raw cwd : String) : List (List Char) :=
  if raw = "" ∨ raw = root then []
  else (split (start raw cwd).2).foldl follow (start raw cwd).1

theorem resolve_eq_ok {raw : String} (hcontrol : ∀ c ∈ raw.toList, Text.isControl c = false)
    (cwd : String) : resolve raw cwd = .ok (ofComponents (landing raw cwd)) := by
  have hnone : ¬ raw.toList.any Text.isControl = true := by simpa using hcontrol
  rw [resolve, if_neg hnone, landing]
  split
  · rw [ofComponents_nil]
  · rfl

/-- Wherever a text leads to can be written and read back. -/
theorem isSolid_of_mem_landing {raw cwd : String} {part : List Char}
    (hpart : part ∈ landing raw cwd) : IsSolid part := by
  rw [landing] at hpart
  split at hpart
  · cases hpart
  · rcases of_mem_foldl_follow hpart with hstart | ⟨hsplit, hne, -⟩
    · exact isSolid_of_mem_start cwd hstart
    · exact ⟨hne, (of_mem_split hsplit).1⟩

/-- What a text means is the root, or stands below some directory. -/
theorem root_or_join_of_resolve {raw cwd path : String} (hresolve : resolve raw cwd = .ok path) :
    path = root ∨ ∃ directory name, separator ∉ name.toList ∧ path = join directory name := by
  have hnone : ¬ raw.toList.any Text.isControl = true := by
    intro hcontrol
    cases hresolve.symm.trans (resolve_eq_error_iff.mpr ⟨hcontrol, rfl⟩)
  rw [resolve_eq_ok (by simpa using hnone), Except.ok.injEq] at hresolve
  have hsolid : ∀ part ∈ landing raw cwd, IsSolid part := fun part => isSolid_of_mem_landing
  rcases List.eq_nil_or_concat (landing raw cwd) with hnil | ⟨parts, part, hparts⟩
  · rw [hnil, ofComponents_nil] at hresolve
    exact .inl hresolve.symm
  · rw [List.concat_eq_append] at hparts
    rw [hparts, ofComponents_append] at hresolve
    refine .inr ⟨_, _, ?_, hresolve.symm⟩
    rw [String.toList_ofList]
    exact (hsolid part (by simp [hparts])).noSeparator

/-- What stands behind a separator is followed from where the text before it leads to. -/
theorem landing_append (raw rest cwd : String) :
    landing (raw ++ "/" ++ rest) cwd = (split rest.toList).foldl follow (landing raw cwd) := by
  have hlong : ¬ (raw ++ "/" ++ rest = "" ∨ raw ++ "/" ++ rest = root) := by
    have hmem : separator ∈ (raw ++ "/" ++ rest).toList := by simp [separator]
    rintro (hnil | hroot)
    · rw [hnil] at hmem
      cases hmem
    · rw [hroot] at hmem
      exact absurd hmem (by decide)
  rw [landing, landing, if_neg hlong]
  by_cases hraw : raw = "" ∨ raw = root
  · rw [if_pos hraw]
    rcases hraw with rfl | rfl <;> simp [start, root]
  · rw [if_neg hraw]
    rw [not_or] at hraw
    rw [start_append cwd hraw.1 hraw.2, split_append, List.foldl_append]

theorem landing_of_not_isAbsolute {raw : String} (hempty : raw ≠ "")
    (hrelative : ¬ IsAbsolute raw) (cwd : String) :
    landing raw cwd = (split raw.toList).foldl follow (components cwd) := by
  have hroot : raw ≠ root := fun hroot => hrelative (.inl hroot)
  rw [landing, if_neg (by simp [hempty, hroot]), start_of_not_isAbsolute cwd hrelative]

/-- Two texts with a separator between them mean what the second one means at the place that the
first one means. -/
theorem resolve_append {raw rest : String}
    (hcontrol : ∀ c ∈ raw.toList, Text.isControl c = false)
    (hcontrol' : ∀ c ∈ rest.toList, Text.isControl c = false) (hempty : rest ≠ "")
    (hrelative : ¬ IsAbsolute rest) (cwd : String) :
    ∃ path, resolve raw cwd = .ok path ∧ resolve (raw ++ "/" ++ rest) cwd = resolve rest path := by
  have hboth : ∀ c ∈ (raw ++ "/" ++ rest).toList, Text.isControl c = false := by
    intro c hc
    simp only [String.toList_append, List.mem_append] at hc
    rcases hc with (hc | hc) | hc
    · exact hcontrol c hc
    · obtain rfl : c = '/' := List.mem_singleton.mp hc
      decide
    · exact hcontrol' c hc
  refine ⟨ofComponents (landing raw cwd), resolve_eq_ok hcontrol cwd, ?_⟩
  have hread : components (ofComponents (landing raw cwd)) = landing raw cwd :=
    components_of_isSolid fun part hpart => isSolid_of_mem_landing hpart
  rw [resolve_eq_ok hboth, resolve_eq_ok hcontrol', landing_append,
    landing_of_not_isAbsolute hempty hrelative, hread]

end Path
end VirtualShell
