import ApprovedOps.Proofs.Yaml.Escapes

/-! # Scalars between double quotes

A scalar between double quotes may be folded at many places: at a space, which then stands behind a
backslash on the next line, and on both sides of an escape. Wherever it is folded, it is read as
itself.
-/

namespace ApprovedOps.Yaml.Layout

open Scalar

variable {start indent column : Nat} {first : Bool} {c : Cursor} {p q : CodePoint} {t r x : Text}

/-- A fold: a backslash, a line break and an indentation. -/
def fold (indent : Nat) : Text :=
  .char '\\' :: .char '\n' :: spaces indent

/-- The ways to write a text between double quotes. -/
inductive Doubled (indent : Nat) : Text → Text → Prop
  /-- Nothing. -/
  | nil : Doubled indent [] []
  /-- A code point that stands for itself. -/
  | bare {p : CodePoint} {t x : Text} : isBare p = true → Doubled indent t x →
      Doubled indent (p :: t) (p :: x)
  /-- An escape. -/
  | escape {p : CodePoint} {t x : Text} : isBare p = false → Doubled indent t x →
      Doubled indent (p :: t) (Layout.escape p ++ x)
  /-- A fold, with no space behind it. -/
  | fold {t x : Text} : t.head? ≠ some (.char ' ') → Doubled indent t x →
      Doubled indent t (Layout.fold indent ++ x)
  /-- A fold with a space behind it, which a backslash keeps. -/
  | foldSpace {t x : Text} : Doubled indent t x →
      Doubled indent (.char ' ' :: t) (Layout.fold indent ++ .char '\\' :: .char ' ' :: x)

theorem isBare_ne (bare : isBare p = true) : p ≠ .char '"' ∧ p ≠ .char '\\' ∧ p ≠ .char '\t' ∧
    Cursor.isBreak p = false := by
  refine ⟨?_, ?_, ?_, ?_⟩
  · rintro rfl
    exact absurd bare (by decide)
  · rintro rfl
    exact absurd bare (by decide)
  · rintro rfl
    exact absurd bare (by decide)
  · simp only [isBare, Bool.or_eq_true, Bool.and_eq_true, decide_eq_true_eq, bne_iff_ne] at bare
    simp only [Cursor.isBreak, Bool.or_eq_false_iff, beq_eq_false_iff_ne]
    omega

theorem isBare_space : isBare (.char ' ') = true := by decide

theorem isBlank_bare (bare : isBare p = true) (space : p ≠ .char ' ') :
    Cursor.isBlank p = false := by
  obtain ⟨-, -, tab, unbroken⟩ := isBare_ne bare
  simp [Cursor.isBlank, Cursor.isSpaceOrTab, space, tab, unbroken]

theorem escape_head (p : CodePoint) (strange : isBare p = false) :
    ∃ e, Layout.escape p = .char '\\' :: e := by
  rw [Layout.escape, strange, if_neg Bool.false_ne_true]
  split
  · exact ⟨_, rfl⟩
  · split
    · exact ⟨_, rfl⟩
    · split <;> exact ⟨_, rfl⟩

/-- Behind spaces stands something else on the same line. -/
theorem Doubled.shown (h : Doubled indent t x) (r : Text) :
    ∃ k q z, x ++ .char '"' :: r = spaces k ++ q :: z ∧ Cursor.isBlank q = false ∧
      (t.head? ≠ some (.char ' ') → k = 0) := by
  induction h with
  | nil => exact ⟨0, _, _, rfl, by decide, fun _ => rfl⟩
  | @bare p t x bare rest ih =>
      by_cases space : p = .char ' '
      · subst space
        obtain ⟨k, q, z, front, shown, -⟩ := ih
        exact ⟨k + 1, q, z, congrArg _ front, shown, fun other => absurd rfl other⟩
      · exact ⟨0, p, _, rfl, isBlank_bare bare space, fun _ => rfl⟩
  | @escape p t x strange rest ih =>
      obtain ⟨e, front⟩ := escape_head p strange
      exact ⟨0, _, _, congrArg (· ++ x ++ _) front, by decide, fun _ => rfl⟩
  | fold other rest ih => exact ⟨0, _, _, rfl, by decide, fun _ => rfl⟩
  | foldSpace rest ih => exact ⟨0, _, _, rfl, by decide, fun other => absurd rfl other⟩

/-- However a text is written between double quotes, it is read as itself. -/
theorem Doubled.tail (h : Doubled indent t x) (deep : 0 < indent)
    (here : c.rest = x ++ .char '"' :: r) :
    Tail true start c t (c.past (x ++ [.char '"'])) := by
  induction h generalizing c with
  | nil => exact .close here (.inl rfl)
  | @bare p t x bare rest ih =>
      have rest_ := ih (Cursor.step_rest here)
      obtain ⟨quote, slash, tab, unbroken⟩ := isBare_ne bare
      by_cases space : p = .char ' '
      · subst space
        obtain ⟨k, q, z, front, shown, -⟩ := rest.shown r
        exact .space (here.trans (congrArg _ front)) shown rest_
      · by_cases apostrophe : p = .char '\''
        · subst apostrophe
          exact .apostrophe here rest_
        · refine .cons here ?_ rest_
          rw [endsQuotedRun, isBlank_bare bare space, Bool.or_false]
          cases p with
          | char x =>
              simp only [Cursor.isOneOf]
              simp_all
          | surrogate i => rfl
  | @escape p t x strange rest ih =>
      rw [List.append_assoc] at here ⊢
      rw [Cursor.past_append]
      exact .escape strange here (ih (Cursor.past_rest here))
  | @fold t x other rest ih =>
      rw [List.append_assoc] at here ⊢
      rw [Cursor.past_append]
      obtain ⟨k, q, z, front, shown, none_⟩ := rest.shown r
      obtain rfl := none_ other
      exact .folded deep (here.trans (congrArg _ front)) shown (ih (Cursor.past_rest here))
  | @foldSpace t x rest ih =>
      rw [List.append_assoc] at here ⊢
      rw [Cursor.past_append]
      have next := Cursor.past_rest here
      exact .folded deep here (by decide)
        (.letter next (by decide) (ih (Cursor.past_rest (t := [_, _]) next)))

/-! ## What is written -/

/-- A space that begins a line is not folded away from it. -/
theorem foldDouble_space (narrow : indent < width) (t : Text) :
    foldDouble indent (indent + 1) false [] (.char ' ' :: t) =
      foldDouble indent (indent + 1) false [.char ' '] t := by
  have fits : ¬width < indent + 1 := by omega
  rw [foldDouble]
  simp [isBare_space, fits]

/-- What is written after what was pending is one of the ways to write the text. -/
theorem foldDouble_doubled (narrow : indent < width) (t : Text) (column : Nat) (first : Bool)
    (pending : Text) :
    ∃ x, foldDouble indent column first pending t = pending ++ x ∧ Doubled indent t x := by
  induction long : t.length using Nat.strong_induction_on generalizing t column first pending with
  | _ n ih =>
      cases t with
      | nil => exact ⟨[], (List.append_nil _).symm, .nil⟩
      | cons p rest =>
          have shorter : rest.length < n := by
            rw [← long, List.length_cons]
            exact Nat.lt_succ_self _
          have next (column : Nat) (pending : Text) := ih _ shorter rest column false pending rfl
          rw [foldDouble]
          by_cases bare : isBare p = true
          · rw [if_pos bare]
            split
            · obtain ⟨x, written, rest_⟩ :=
                next (indent + (if isSpace p then backslash else []).length) [p]
              simp only [written]
              by_cases space : isSpace p = true
              · obtain rfl : p = .char ' ' := by simpa [isSpace] using space
                exact ⟨_, by simp [space]; rfl, .foldSpace rest_⟩
              · have other : p ≠ .char ' ' := by simpa [isSpace] using space
                refine ⟨_, ?_, .fold (t := p :: rest) (by simpa using other) (.bare bare rest_)⟩
                simp [space]
                rfl
            · obtain ⟨x, written, rest_⟩ := next column (pending ++ [p])
              exact ⟨p :: x, by rw [written, List.append_assoc]; rfl, .bare bare rest_⟩
          · have strange : isBare p = false := Bool.eq_false_iff.mpr bare
            rw [if_neg bare]
            simp only
            split
            · cases rest with
              | nil => simp at *
              | cons q rest' =>
                  by_cases space : isSpace q = true
                  · obtain rfl : q = .char ' ' := by simpa [isSpace] using space
                    obtain ⟨x, written, rest_⟩ :=
                      ih _ (by simp at long; omega) rest' (indent + 1) false [.char ' '] rfl
                    have same := (foldDouble_space narrow rest').trans written
                    refine ⟨_, ?_, .escape strange (.foldSpace rest_)⟩
                    simp [space, backslash, same]
                    rfl
                  · have other : q ≠ .char ' ' := by simpa [isSpace] using space
                    obtain ⟨x, written, rest_⟩ := next indent []
                    refine ⟨_, ?_, .escape strange (.fold (by simpa using other) rest_)⟩
                    simp [space, written]
                    rfl
            · obtain ⟨x, written, rest_⟩ := next (column + (pending ++ escape p).length) []
              exact ⟨_, by rw [written, List.append_assoc]; rfl, .escape strange rest_⟩

end ApprovedOps.Yaml.Layout
