import Mathlib.Data.List.TakeWhile
import ApprovedOps.Proofs.Text.Names
import ApprovedOps.Record.Basic

/-! # The names of files

A name has no dots. So a namespace and a name can be told from the name of their file, even if the
namespace has dots, and the extension of the file is the one that it was composed with.
-/

namespace ApprovedOps

namespace FileName

theorem splitLast?_none {sep : CodePoint} {t : Text} (h : sep ∉ t) : splitLast? sep t = none := by
  induction t with
  | nil => rfl
  | cons c t ih =>
      rw [List.mem_cons, not_or] at h
      rw [splitLast?, ih h.2]
      exact if_neg fun same => h.1 same.symm

theorem splitLast?_append {sep : CodePoint} (before : Text) {after : Text} (h : sep ∉ after) :
    splitLast? sep (before ++ sep :: after) = some (before, after) := by
  induction before with
  | nil => simp [splitLast?, splitLast?_none h]
  | cons c before ih => simp [splitLast?, ih]

/-- A text with a separator is split at the last one. -/
theorem splitLast?_mem {sep : CodePoint} {t : Text} (h : sep ∈ t) :
    ∃ before after, t = before ++ sep :: after ∧ sep ∉ after := by
  induction t with
  | nil => cases h
  | cons c t ih =>
      by_cases later : sep ∈ t
      · obtain ⟨before, after, rfl, last⟩ := ih later
        exact ⟨c :: before, after, rfl, last⟩
      · obtain rfl := (List.mem_cons.mp h).resolve_right later
        exact ⟨[], t, rfl, later⟩

/-- A text has one last separator. -/
theorem append_sep_inj {sep : CodePoint} {a b a' b' : Text} (h : sep ∉ b) (h' : sep ∉ b')
    (same : a ++ sep :: b = a' ++ sep :: b') : a = a' ∧ b = b' := by
  have split := splitLast?_append a h
  rw [same, splitLast?_append a' h'] at split
  cases split
  exact ⟨rfl, rfl⟩

theorem compose_append (ns name ext : Text) : compose ns name ext = compose ns name [] ++ ext := by
  unfold compose
  split <;> simp

/-- A composed name tells its parts where the names have no dots. -/
theorem compose_parts {ns ns' name name' : Text} (dotless : .char '.' ∉ name)
    (dotless' : .char '.' ∉ name') (same : compose ns name [] = compose ns' name' []) :
    ns = ns' ∧ name = name' := by
  simp only [compose, List.append_nil, List.append_assoc, List.singleton_append] at same
  split at same
  next empty =>
    split at same
    next empty' => exact ⟨empty.trans empty'.symm, same⟩
    next => exact absurd (same ▸ by simp) dotless
  next =>
    split at same
    next => exact absurd (same ▸ by simp) dotless'
    next => exact append_sep_inj dotless dotless' same

theorem compose_inj {ns ns' name name' ext : Text} (h : name.isName = true)
    (h' : name'.isName = true) (same : compose ns name ext = compose ns' name' ext) :
    ns = ns' ∧ name = name' := by
  rw [compose_append, compose_append ns'] at same
  exact compose_parts (Text.isName_notMem h rfl) (Text.isName_notMem h' rfl)
    (List.append_cancel_right same)

theorem slashless_compose {ns name ext : Text} (below : .char '/' ∉ ns)
    (named : .char '/' ∉ name) (slash : .char '/' ∉ ext) : .char '/' ∉ compose ns name ext := by
  unfold compose
  split <;> simp [below, named, slash]

theorem base_append {dir file : Text} (h : .char '/' ∉ file) :
    base (dir ++ .char '/' :: file) = file := by
  rw [base, splitLast?_append dir h]

/-- The extension of a file name is the one that was put behind the stem, if the stem has more than
    dots. -/
theorem splitBaseExtension_stem {stem ext : Text} (proper : ∃ c ∈ stem, c ≠ .char '.')
    (dotless : .char '.' ∉ ext) :
    splitBaseExtension (stem ++ .char '.' :: ext) = (stem, .char '.' :: ext) := by
  obtain ⟨c, among, other⟩ := proper
  rw [splitBaseExtension]
  have whole :=
    congrArg List.length (List.takeWhile_append_dropWhile (p := (· = .char '.')) (l := stem))
  have rest : stem.dropWhile (· = .char '.') ≠ [] :=
    fun nothing => other (of_decide_eq_true (List.dropWhile_eq_nil_iff.mp nothing c among))
  have some_ := List.length_pos_iff.mpr rest
  have dots : (stem.takeWhile (· = .char '.')).length ≠ stem.length := by
    rw [List.length_append] at whole
    omega
  rw [List.takeWhile_append, List.dropWhile_append, if_neg dots, if_neg (by simpa using rest)]
  simp only [splitLast?_append _ dotless]
  rw [List.takeWhile_append_dropWhile]

theorem compose_proper (ns ext : Text) {name : Text} (some_ : name ≠ [])
    (dotless : .char '.' ∉ name) : ∃ c ∈ compose ns name ext, c ≠ .char '.' := by
  obtain ⟨c, r, rfl⟩ := List.exists_cons_of_ne_nil some_
  refine ⟨c, ?_, ?_⟩
  · unfold compose
    split <;> simp
  · rintro rfl
    exact dotless List.mem_cons_self

/-- The extension of a composed name is the one it was composed with. -/
theorem splitBaseExtension_compose {name ext : Text} (ns : Text) (h : name.isName = true)
    (dotless : .char '.' ∉ ext) :
    splitBaseExtension (compose ns name (.char '.' :: ext)) =
      (compose ns name [], .char '.' :: ext) := by
  rw [compose_append]
  exact splitBaseExtension_stem
    (compose_proper ns [] (Text.isName_ne_nil h) (Text.isName_notMem h rfl)) dotless

/-- A composed stem is split into what it was composed of. -/
theorem split_compose {ns name : Text} (some_ : name ≠ []) (dotless : .char '.' ∉ name) :
    split (compose ns name []) = (ns, name) := by
  by_cases empty : ns = []
  · rw [compose, if_pos empty, List.append_nil, split, splitLast?_none dotless, empty]
  · rw [compose, if_neg empty, List.append_nil, List.append_assoc, List.singleton_append, split,
      splitLast?_append ns dotless]
    cases name with
    | nil => exact absurd rfl some_
    | cons c r => rfl

/-- What a stem is split into was in it. -/
theorem split_subset (stem : Text) : (split stem).1 ⊆ stem ∧ (split stem).2 ⊆ stem := by
  unfold split
  by_cases dot : .char '.' ∈ stem
  · obtain ⟨ns, name, rfl, dotless⟩ := splitLast?_mem dot
    rw [splitLast?_append ns dotless]
    cases name with
    | nil => simp
    | cons c r => simp
  · rw [splitLast?_none dot]
    simp

theorem splitBaseExtension_subset (file : Text) : (splitBaseExtension file).1 ⊆ file := by
  have whole := List.takeWhile_append_dropWhile (p := (· = .char '.')) (l := file)
  unfold splitBaseExtension
  dsimp only
  by_cases dot : .char '.' ∈ file.dropWhile (· = .char '.')
  · obtain ⟨before, after, split, dotless⟩ := splitLast?_mem dot
    rw [split, splitLast?_append before dotless]
    rw [split] at whole
    intro c among
    rw [← whole]
    rcases List.mem_append.mp among with dots | later
    · exact List.mem_append_left _ dots
    · exact List.mem_append_right _ (List.mem_append_left _ later)
  · rw [splitLast?_none dot]
    exact List.Subset.refl file

/-- What a stem is split into has no dot in the name. -/
theorem split_dotless (stem : Text) : .char '.' ∉ (split stem).2 := by
  unfold split
  by_cases dot : .char '.' ∈ stem
  · obtain ⟨ns, name, rfl, dotless⟩ := splitLast?_mem dot
    rw [splitLast?_append ns dotless]
    cases name with
    | nil => exact nofun
    | cons c r => exact dotless
  · rw [splitLast?_none dot]
    exact dot

end FileName

end ApprovedOps
