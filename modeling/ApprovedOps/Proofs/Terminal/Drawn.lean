import Mathlib.Data.List.TakeDrop
import ApprovedOps.Proofs.Files.Path
import ApprovedOps.Proofs.Text.Scalar
import ApprovedOps.Terminal.Table

/-! # What tables are drawn of

Whatever a table is about, its drawing ends a line, and it can be written if its texts can: wrapping,
cutting and padding bring in nothing but spaces, marks and borders.
-/

namespace ApprovedOps

namespace Text

theorem trimRight_subset (t : Text) : t.trimRight ⊆ t := by
  intro p among
  exact List.mem_reverse.mp ((List.dropWhile_sublist _).subset (List.mem_reverse.mp among))

theorem splitOn_subset {sep : CodePoint} {t run : Text} (among : run ∈ splitOn sep t) :
    run ⊆ t := by
  induction t generalizing run with
  | nil =>
      rw [splitOn, List.mem_singleton] at among
      exact among ▸ List.Subset.refl []
  | cons c r ih =>
      rw [splitOn] at among
      split at among
      next =>
        obtain rfl | later := List.mem_cons.mp among
        · exact List.nil_subset _
        · exact List.Subset.trans (ih later) (List.subset_cons_self c r)
      next =>
        obtain ⟨first, runs, text⟩ := List.exists_cons_of_ne_nil (splitOn_ne_nil sep r)
        rw [text] at among ih
        obtain rfl | later := List.mem_cons.mp among
        · exact List.cons_subset_cons c (ih List.mem_cons_self)
        · exact List.Subset.trans (ih (List.mem_cons_of_mem _ later)) (List.subset_cons_self c r)

end Text

open Text

namespace Lines

/-! ## Lines -/

@[simp]
theorem scalar_spaces (n : Nat) : Scalar (spaces n) := by
  intro p among
  rw [List.eq_of_mem_replicate among]
  rfl

theorem scalar_padded {t : Text} (h : Scalar t) (width : Nat) : Scalar (padded width t) :=
  scalar_append.mpr ⟨h, scalar_spaces _⟩

theorem take_subset (room : Nat) (t : Text) : take room t ⊆ t := by
  induction t generalizing room with
  | nil => exact List.Subset.refl []
  | cons p r ih =>
      rw [take]
      split
      next => exact List.cons_subset_cons p (ih _)
      next => exact List.nil_subset _

theorem scalar_sized {t : Text} (h : Scalar t) (width : Nat) : Scalar (sized width t) := by
  rw [sized]
  split
  next => exact scalar_padded h width
  next => exact scalar_padded (h.of_subset (take_subset width t)) width

theorem scalar_cut {t : Text} (h : Scalar t) (width : Nat) (o : Overflow) :
    Scalar (cut width o t) := by
  unfold cut
  split
  next => exact h
  next =>
    cases o with
    | fold => exact scalar_sized h width
    | ellipsis => exact scalar_append.mpr ⟨scalar_sized h _, by simp⟩

theorem scalar_aligned {t : Text} (h : Scalar t) (width : Nat) (o : Overflow) (a : Alignment) :
    Scalar (aligned width o a t) := by
  cases a with
  | left => exact scalar_padded (scalar_cut h width o) width
  | center =>
      have text := scalar_cut (h.of_subset t.trimRight_subset) width o
      exact scalar_padded (scalar_append.mpr ⟨scalar_spaces _, text⟩) width

/-! ## Wrapping -/

theorem split_flatten (t : Text) : (blankedWords.split t).flatten = t := by
  induction t using blankedWords.split.induct with
  | case1 => rfl
  | case2 p => rfl
  | case3 p q r nothing ih => simp [nothing] at ih
  | case4 p q r w ws found here ih =>
      rw [blankedWords.split, found]
      rw [found, List.flatten_cons] at ih
      simp only [if_pos here, List.flatten_cons, ih, List.singleton_append]
  | case5 p q r w ws found other ih =>
      rw [blankedWords.split, found]
      rw [found, List.flatten_cons] at ih
      simp only [if_neg other, List.flatten_cons, List.cons_append, ih]

theorem scalar_blankedWords {t w : Text} (h : Scalar t) (among : w ∈ blankedWords t) :
    Scalar w := by
  have parts : t.span CodePoint.isBlank = (t.takeWhile CodePoint.isBlank,
      t.dropWhile CodePoint.isBlank) := List.span_eq_takeWhile_dropWhile _ t
  have front : Scalar (t.takeWhile CodePoint.isBlank) :=
    h.of_subset (List.takeWhile_sublist _).subset
  have words : ∀ w ∈ blankedWords.split (t.dropWhile CodePoint.isBlank), Scalar w := by
    rw [← scalar_flatten, split_flatten]
    exact h.of_subset (List.dropWhile_sublist _).subset
  rw [blankedWords, parts] at among
  dsimp only at among
  split at among
  next => cases among
  next first rest found =>
    rw [found] at words
    obtain ⟨here, later⟩ := List.forall_mem_cons.mp words
    obtain rfl | among := List.mem_cons.mp among
    · exact scalar_append.mpr ⟨front, here⟩
    · exact later w among

theorem chopAfter_flatten (width : Nat) (before : Text) (used : Nat) (t : Text) :
    (chopAfter width before used t).flatten = before.reverse ++ t := by
  induction t generalizing before used with
  | nil => simp [chopAfter]
  | cons p r ih =>
      rw [chopAfter]
      split
      next => rw [List.flatten_cons, ih, List.reverse_singleton, List.singleton_append]
      next => rw [ih, List.reverse_cons, List.append_assoc, List.singleton_append]

theorem scalar_chop {word : Text} (h : Scalar word) (width : Nat) :
    ∀ piece ∈ chop width word, Scalar piece := by
  rwa [← scalar_flatten, chop, chopAfter_flatten]

theorem scalar_finished {line : Text} (h : Scalar line) : ∀ l ∈ finished line, Scalar l := by
  intro l among
  rw [finished] at among
  split at among
  next => cases among
  next => exact (List.mem_singleton.mp among) ▸ h

theorem scalar_fill {words : List Text} (width : Nat) (o : Overflow) (used : Nat)
    (ready : ∀ w ∈ words, Scalar w) {line : Text} (h : Scalar line) :
    ∀ l ∈ fill width o line used words, Scalar l := by
  induction words generalizing line used with
  | nil =>
      rw [fill]
      exact List.forall_mem_singleton.mpr h
  | cons word rest ih =>
      obtain ⟨here, later⟩ := List.forall_mem_cons.mp ready
      rw [fill]
      dsimp only
      split
      next => exact ih _ later (scalar_append.mpr ⟨h, here⟩)
      next =>
        split
        next =>
          have pieces := scalar_chop here width
          have last : Scalar ((chop width word).getLastD []) := by
            rw [List.getLastD_eq_getLast?]
            cases found : (chop width word).getLast? with
            | none => exact scalar_nil
            | some piece => exact pieces piece (List.mem_of_getLast? found)
          simp only [List.forall_mem_append]
          exact ⟨⟨scalar_finished h, fun l among =>
            pieces l (List.dropLast_subset _ among)⟩, ih _ later last⟩
        next => exact List.forall_mem_append.mpr ⟨scalar_finished h, ih _ later here⟩

theorem scalar_withoutExcess {line : Text} (h : Scalar line) (size : Nat) :
    Scalar (withoutExcess size line) :=
  h.of_subset (List.take_subset _ _)

theorem scalar_withoutTabs (column : Nat) {part t : Text} (front : Scalar part) (h : Scalar t) :
    Scalar (withoutTabs column part t) := by
  induction t generalizing column part with
  | nil => exact scalar_reverse.mpr front
  | cons p r ih =>
      obtain ⟨here, later⟩ := scalar_cons.mp h
      rw [withoutTabs]
      dsimp only
      split
      next =>
        simp only [scalar_append, scalar_reverse, scalar_spaces, and_true]
        exact ⟨front, ih _ scalar_nil later⟩
      next => exact ih _ (scalar_cons.mpr ⟨here, front⟩) later

theorem scalar_wrapLine {t : Text} (h : Scalar t) (width : Nat) (wraps : Bool) (o : Overflow) :
    ∀ l ∈ wrapLine width wraps o t, Scalar l := by
  have tabless := scalar_withoutTabs 0 scalar_nil h
  rw [wrapLine]
  generalize words : (if wraps then blankedWords (withoutTabs 0 [] t) else []) = ws
  have ready : ∀ w ∈ ws, Scalar w := by
    subst words
    cases wraps with
    | true => exact fun w among => scalar_blankedWords tabless among
    | false => exact List.forall_mem_nil _
  refine List.forall_mem_map.mpr fun line among => scalar_withoutExcess ?_ width
  split at among
  next => exact (List.mem_singleton.mp among) ▸ tabless
  next => exact scalar_fill width o 0 ready scalar_nil line among

theorem scalar_wrap {t : Text} (h : Scalar t) (width : Nat) (wraps : Bool) (o : Overflow)
    (a : Alignment) : ∀ l ∈ wrap width wraps o a t, Scalar l := by
  rw [wrap]
  refine List.forall_mem_map.mpr fun line among => scalar_aligned ?_ width o a
  obtain ⟨run, piece, inside⟩ := List.mem_flatMap.mp among
  exact scalar_wrapLine (h.of_subset (splitOn_subset piece)) width wraps o line inside

end Lines

namespace Table

/-! ## Tables -/

variable {t : Table}

/-- The texts of a table that may have markup. -/
def texts (t : Table) : List Text :=
  t.title :: t.rows.flatten

theorem scalar_line (left between right : Char) {parts : List Text}
    (h : ∀ t ∈ parts, Scalar t) : Scalar (line left between right parts) := by
  have inside : Scalar (join [.char between] parts) := scalar_join (by simp) h
  simp [line, inside]

theorem scalar_rule (left fill between right : Char) (widths : List Nat) :
    Scalar (rule left fill between right widths) := by
  apply scalar_line
  refine List.forall_mem_map.mpr fun width _ p among => ?_
  rw [List.eq_of_mem_replicate among]
  rfl

theorem scalar_cellLines {text : Text} (h : Scalar text) (width : Nat) (c : Column) :
    ∀ l ∈ cellLines width c text, Scalar l := by
  rw [cellLines]
  split
  next => exact List.forall_mem_nil _
  next =>
    refine List.forall_mem_map.mpr fun line among => ?_
    simpa using Lines.scalar_wrap h _ _ _ _ line among

theorem scalar_row (border : Char) (columns : List (Nat × Column)) {texts : List Text}
    (h : ∀ t ∈ texts, Scalar t) : Scalar (row border columns texts) := by
  rw [row, scalar_flatMap]
  intro i _
  refine scalar_line _ _ _ (List.forall_mem_map.mpr (List.forall_mem_map.mpr ?_))
  intro ⟨⟨width, c⟩, text⟩ among
  dsimp only
  cases found : (cellLines width c text)[i]? with
  | none => exact Lines.scalar_spaces width
  | some l =>
      exact scalar_cellLines (h text (List.of_mem_zip among).2) width c l
        (List.mem_of_getElem? found)

/-- A table can be written if its texts can. -/
theorem scalar_draw (headers : ∀ c ∈ t.columns, Scalar c.header) (h : ∀ x ∈ t.texts, Scalar x)
    (room : Nat) : Scalar (t.draw room) := by
  obtain ⟨title, rows⟩ := List.forall_mem_cons.mp h
  rw [draw, Text.concat, scalar_flatten]
  simp only [List.forall_mem_cons, scalar_rule, true_and, scalar_flatMap]
  refine ⟨fun line among => ?_, ?_, fun texts among => ?_, List.forall_mem_nil _⟩
  · exact scalar_append.mpr ⟨Lines.scalar_wrap title _ _ _ _ line among, by simp⟩
  · exact scalar_row _ _ (List.forall_mem_map.mpr headers)
  · exact scalar_row _ _ fun text inside =>
      rows text (List.mem_flatten.mpr ⟨texts, among, inside⟩)

/-- The drawing of a table ends a line. -/
theorem draw_ends (room : Nat) (t : Table) : [.char '\n'] <:+ t.draw room := by
  have ends (widths : List Nat) : [.char '\n'] <:+ rule '└' '─' '┴' '┘' widths :=
    (List.suffix_cons (.char '┘') _).trans (List.suffix_append _ _)
  have last (parts : List Text) (t : Text) : t <:+ Text.concat (parts ++ [t]) := by
    simp [Text.concat]
  exact (ends _).trans (last [_, _, _, _, _] _)

end Table

end ApprovedOps
