import ApprovedOps.Files.Path

/-! # Paths and their texts

A text is split at its slashes into names without slashes, and names that are joined by slashes are
split into the same names again. So a path that a text writes is read back from its own text.
-/

namespace ApprovedOps

/-! ## Splitting and joining -/

namespace Text

variable {sep : CodePoint}

theorem splitOn_ne_nil (sep : CodePoint) (t : Text) : splitOn sep t ≠ [] := by
  cases t with
  | nil => simp [splitOn]
  | cons c t =>
      rw [splitOn]
      split
      · simp
      · split <;> simp

/-- A text without the separator is one run. -/
theorem splitOn_single {t : Text} (h : sep ∉ t) : splitOn sep t = [t] := by
  induction t with
  | nil => rfl
  | cons c t ih =>
      obtain ⟨other, rest⟩ : sep ≠ c ∧ sep ∉ t := by simpa using h
      rw [splitOn, if_neg (Ne.symm other), ih rest]

theorem splitOn_append (sep : CodePoint) (before after : Text) :
    splitOn sep (before ++ sep :: after) = splitOn sep before ++ splitOn sep after := by
  induction before with
  | nil => simp [splitOn]
  | cons c before ih =>
      rw [List.cons_append, splitOn, ih, splitOn]
      split
      · rfl
      · obtain ⟨run, runs, text⟩ := List.exists_cons_of_ne_nil (splitOn_ne_nil sep before)
        rw [text]
        rfl

theorem splitOn_last (before : Text) {after : Text} (h : sep ∉ after) :
    splitOn sep (before ++ sep :: after) = splitOn sep before ++ [after] := by
  rw [splitOn_append, splitOn_single h]

/-- The runs do not hold the separator. -/
theorem notMem_splitOn {t run : Text} (among : run ∈ splitOn sep t) : sep ∉ run := by
  induction t generalizing run with
  | nil => simp_all [splitOn]
  | cons c t ih =>
      rw [splitOn] at among
      split at among
      next =>
        obtain rfl | later := List.mem_cons.mp among
        · exact List.not_mem_nil
        · exact ih later
      next other =>
        obtain ⟨first, runs, text⟩ := List.exists_cons_of_ne_nil (splitOn_ne_nil sep t)
        rw [text] at among ih
        obtain rfl | later := List.mem_cons.mp among
        · exact List.not_mem_cons_of_ne_of_not_mem (Ne.symm other) (ih List.mem_cons_self)
        · exact ih (List.mem_cons_of_mem _ later)

theorem splitOn_join {names : List Text} (some_ : names ≠ []) (apart : ∀ n ∈ names, sep ∉ n) :
    splitOn sep (join [sep] names) = names := by
  induction names with
  | nil => exact absurd rfl some_
  | cons n names ih =>
      obtain ⟨here, later⟩ := List.forall_mem_cons.mp apart
      cases names with
      | nil => exact splitOn_single here
      | cons m names =>
          have joined : join [sep] (n :: m :: names) = n ++ sep :: join [sep] (m :: names) := by
            simp [join]
          rw [joined, splitOn_append, splitOn_single here, ih nofun later]
          rfl

end Text

/-! ## Paths -/

namespace Path

theorem ofText_names {t : Text} {n : Text} (among : n ∈ (ofText t).names) :
    isName n = true ∧ .char '/' ∉ n := by
  obtain ⟨piece, name⟩ := List.mem_filter.mp among
  exact ⟨name, Text.notMem_splitOn piece⟩

/-- The slashes in front of a text count as none, one or two. -/
theorem ofText_anchor (t : Text) :
    ∃ k ≤ 2, (ofText t).anchor = List.replicate k (.char '/') := by
  refine ⟨_, ?_, rfl⟩
  split <;> omega

theorem takeWhile_slashes {names : List Text} (apart : ∀ n ∈ names, isName n = true ∧ .char '/' ∉ n) :
    (Text.join [.char '/'] names).takeWhile (· = .char '/') = [] := by
  cases names with
  | nil => rfl
  | cons n names =>
      obtain ⟨name, slashless⟩ := apart n List.mem_cons_self
      obtain ⟨c, r, rfl⟩ : ∃ c r, n = c :: r := by
        cases n with
        | nil => cases name
        | cons c r => exact ⟨c, r, rfl⟩
      have other : c ≠ .char '/' := fun same => slashless (same ▸ List.mem_cons_self)
      cases names <;> simp [Text.join, other]

theorem filter_splitOn {names : List Text} (apart : ∀ n ∈ names, isName n = true ∧ .char '/' ∉ n)
    (k : Nat) :
    (Text.splitOn (.char '/') (List.replicate k (.char '/') ++ Text.join [.char '/'] names)).filter
      isName = names := by
  induction k with
  | zero =>
      cases names with
      | nil => rfl
      | cons n names =>
          rw [List.replicate_zero, List.nil_append,
            Text.splitOn_join (List.cons_ne_nil n names) fun n among => (apart n among).2]
          exact List.filter_eq_self.mpr fun n among => (apart n among).1
  | succ k ih =>
      rw [List.replicate_succ, List.cons_append, Text.splitOn, if_pos rfl]
      exact ih

/-- The path of at most two slashes and names behind them. -/
theorem ofText_slashes {k : Nat} {names : List Text} (few : k ≤ 2)
    (apart : ∀ n ∈ names, isName n = true ∧ .char '/' ∉ n) :
    ofText (List.replicate k (.char '/') ++ Text.join [.char '/'] names) =
      ⟨List.replicate k (.char '/'), names⟩ := by
  have slashes : ((List.replicate k (CodePoint.char '/') ++ Text.join [.char '/'] names).takeWhile
      (· = .char '/')).length = k := by
    rw [List.takeWhile_append_of_pos (by simp), takeWhile_slashes apart, List.append_nil,
      List.length_replicate]
  have count : (if k = 2 then 2 else min k 1) = k := by
    split <;> omega
  rw [ofText, slashes, filter_splitOn apart, count]

/-- A path that a text writes is read back from its own text. -/
theorem ofText_toText (t : Text) : ofText (ofText t).toText = ofText t := by
  obtain ⟨k, few, anchor⟩ := ofText_anchor t
  unfold toText
  split
  next nothing =>
    obtain ⟨noSlash, noName⟩ := nothing
    have same : ofText t = ⟨[], []⟩ := by
      rw [← noSlash, ← noName]
    rw [same]
    rfl
  next =>
    have same := ofText_slashes few fun n (among : n ∈ (ofText t).names) => ofText_names among
    rw [anchor, same, ← anchor]

theorem toText_ne_nil (t : Text) : (ofText t).toText ≠ [] := by
  intro nothing
  have same := ofText_toText t
  rw [nothing] at same
  rw [← same] at nothing
  cases nothing

end Path

end ApprovedOps
