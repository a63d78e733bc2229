import ApprovedOps.Proofs.Yaml.Quoted

/-! # Scalars between single quotes

A scalar between single quotes is written piece by piece: text with its quotes twice, spaces, and
line breaks with an indentation after them. It is read again with its line breaks joined.
-/

namespace ApprovedOps.Yaml.Layout

open Scalar

variable {start indent column : Nat} {first : Bool} {c stop : Cursor} {p q : CodePoint}
  {s t r x : Text}

theorem hasPair_suffix {before after : CodePoint → Bool}
    (h : hasPair before after (s ++ t) = false) : hasPair before after t = false := by
  induction s with
  | nil => exact h
  | cons p s ih =>
      rw [List.cons_append] at h
      cases rest : s ++ t with
      | nil =>
          rw [(List.append_eq_nil_iff.mp rest).2]
          rfl
      | cons q u =>
          rw [rest, hasPair, Bool.or_eq_false_iff] at h
          exact ih (by rw [rest]; exact h.2)

/-- Where two runs meet, their classes are no pair. -/
theorem hasPair_join {before after : CodePoint → Bool} (some_ : s ≠ [])
    (all : ∀ p ∈ s, before p = true) (h : hasPair before after (s ++ q :: t) = false) :
    after q = false := by
  obtain ⟨s, p, rfl⟩ := List.eq_nil_or_concat s |>.resolve_left some_
  rw [List.concat_eq_append, List.append_assoc] at h
  have front := all p (by simp)
  exact (hasPair_split h).resolve_left (by rw [front]; simp)

theorem pieceKind_space (p : CodePoint) : pieceKind p = 0 ↔ isSpace p = true := by
  rw [pieceKind]
  split
  · simpa
  · split <;> simp_all

theorem pieceKind_break (p : CodePoint) : pieceKind p = 1 ↔ isBreak p = true := by
  rw [pieceKind]
  split
  · next space =>
      obtain rfl : p = .char ' ' := by simpa [isSpace] using space
      decide
  · split <;> simp_all

theorem pieceKind_text (space : isSpace p = false) (unbroken : isBreak p = false) :
    pieceKind p = 2 := by
  simp [pieceKind, space, unbroken]

/-- A text that may stand between single quotes: no blank is beside a line break. -/
structure Quotable (t : Text) : Prop where
  /-- Nothing has to be escaped. -/
  writable : ∀ p ∈ t, isWritable p = true
  /-- No space is in front of a line break. -/
  spaces : hasPair isSpace isBreak t = false
  /-- No space is behind a line break. -/
  breaks : hasPair isBreak isSpace t = false

theorem Quotable.suffix (h : Quotable (s ++ t)) : Quotable t :=
  ⟨fun p among => h.writable p (List.mem_append_right s among), hasPair_suffix h.spaces,
    hasPair_suffix h.breaks⟩

theorem quotable_of_allowed (h : allowsSingle t = true) : Quotable t := by
  simp only [allowsSingle, needsEscapes, Bool.and_eq_true, Bool.not_eq_true', Bool.or_eq_false_iff,
    List.any_eq_false, Bool.not_eq_false] at h
  exact ⟨fun p among => by simpa using h.1.1 p among, h.1.2, h.2⟩

/-- What is neither a space nor a line break is no blank to a reader. -/
theorem isBlank_of_kind (writable : isWritable p = true) (kind : pieceKind p = 2) :
    Cursor.isBlank p = false := by
  have space : p ≠ .char ' ' := by
    rintro rfl
    cases kind
  have unbroken : isBreak p = false := by
    refine Bool.eq_false_iff.mpr fun h => ?_
    rw [(pieceKind_break p).mpr h] at kind
    cases kind
  simp [Cursor.isBlank, Cursor.isSpaceOrTab, space, (writable_ne writable).2.1,
    isBreak_writable writable, unbroken]

/-- Text with its single quotes twice is read as the text. -/
theorem tail_doubleQuotes (writable : ∀ p ∈ s, isWritable p = true)
    (kind : ∀ p ∈ s, pieceKind p = 2) (here : c.rest = doubleQuotes s ++ x)
    (h : Tail false start (c.past (doubleQuotes s)) t stop) :
    Tail false start c (s ++ t) stop := by
  induction s generalizing c with
  | nil => exact h
  | cons p s ih =>
      obtain ⟨shown, writable'⟩ := List.forall_mem_cons.mp writable
      obtain ⟨other, kind'⟩ := List.forall_mem_cons.mp kind
      have unblank := isBlank_of_kind shown other
      by_cases quote : p = .char '\''
      · subst quote
        have pair : doubleQuotes (.char '\'' :: s) = [.char '\'', .char '\''] ++ doubleQuotes s :=
          rfl
        rw [pair] at here h
        rw [Cursor.past_append] at h
        exact .apostrophes here (ih writable' kind' (Cursor.past_rest (here.trans
          (List.append_assoc _ _ _))) h)
      · have single : doubleQuotes (p :: s) = [p] ++ doubleQuotes s := by
          rw [doubleQuotes, List.flatMap_cons, if_neg quote]
          rfl
        rw [single] at here h
        rw [Cursor.past_append] at h
        have rest := ih writable' kind' (Cursor.past_rest (here.trans (List.append_assoc _ _ _))) h
        by_cases mark : p = .char '"' ∨ p = .char '\\'
        · exact .raw here mark rest
        · obtain ⟨double, slash⟩ := not_or.mp mark
          refine .cons here ?_ rest
          rw [Scalar.endsQuotedRun, unblank, Bool.or_false]
          cases p with
          | char x =>
              simp only [Cursor.isOneOf]
              simp_all
          | surrogate i => rfl

theorem doubleQuotes_plain (other : .char '\'' ∉ s) : doubleQuotes s = s := by
  have each (p : CodePoint) (among : p ∈ s) :
      (if p = .char '\'' then [p, p] else [p]) = [p] :=
    if_neg (ne_of_mem_of_not_mem among other)
  rw [doubleQuotes, List.flatMap_def, List.map_congr_left each, ← List.flatMap_def,
    List.flatMap_singleton']

/-- Behind a blank piece stands text, or the closing quote. -/
theorem foldSingle_shown (indent column : Nat) (first : Bool) (x : Text) {ps : List Text}
    (h : Divided pieceKind t ps)
    (writable : ∀ p ∈ t, isWritable p = true) (kind : ∀ p ∈ t.head?, pieceKind p = 2) :
    ∃ q r, foldSingle indent column first ps ++ .char '\'' :: x = q :: r ∧
      Cursor.isBlank q = false := by
  cases h with
  | nil => exact ⟨_, _, rfl, by decide⟩
  | @cons k run t ps some_ all ends rest =>
      obtain ⟨p, run, rfl⟩ := List.exists_cons_of_ne_nil some_
      have here := kind p (by simp)
      obtain rfl : k = 2 := (all p List.mem_cons_self).symm.trans here
      have shown := isBlank_of_kind (writable p (by simp)) here
      have unbroken : (p :: run).any isBreak = false := by
        refine List.any_eq_false.mpr fun q among broken => ?_
        have := all q among
        rw [(pieceKind_break q).mpr broken] at this
        cases this
      have space : p :: run ≠ [.char ' '] := by
        intro same
        rw [(List.cons.inj same).1] at here
        cases here
      rw [foldSingle, unbroken, if_neg Bool.false_ne_true, if_neg (by simp [space])]
      by_cases quote : p = .char '\''
      · subst quote
        exact ⟨_, _, rfl, by decide⟩
      · have front : doubleQuotes (p :: run) = p :: doubleQuotes run := by
          rw [doubleQuotes, List.flatMap_cons, if_neg quote]
          rfl
        rw [front]
        exact ⟨_, _, rfl, shown⟩

/-- The pieces of a scalar between single quotes are read again, line breaks joined. -/
theorem tail_foldSingle {ps : List Text} (h : Divided pieceKind t ps) (quotable : Quotable t)
    (deep : 0 < indent) (alone : r.head? ≠ some (.char '\''))
    (here : c.rest = foldSingle indent column first ps ++ .char '\'' :: r) :
    Tail false start c (ps.flatMap rejoined)
      (c.past (foldSingle indent column first ps ++ [.char '\''])) := by
  induction h generalizing c column first with
  | nil => exact .close here (.inr alone)
  | @cons k run t ps some_ all ends rest ih =>
      have inner := quotable.suffix
      have spaced (same : k = 0) : ∀ p ∈ run, isSpace p = true :=
        fun p among => (pieceKind_space p).mp ((all p among).trans same)
      have broken (same : k = 1) : ∀ p ∈ run, isBreak p = true :=
        fun p among => (pieceKind_break p).mp ((all p among).trans same)
      -- A blank piece is followed by text: not by a piece of its own kind, nor by the other blanks.
      have next (blank : k = 0 ∨ k = 1) : ∀ p ∈ t.head?, pieceKind p = 2 := by
        intro q head
        obtain ⟨t', rfl⟩ := List.head?_eq_some_iff.mp head
        have other := ends q head
        rcases blank with same | same
        · exact pieceKind_text
            (Bool.eq_false_iff.mpr fun h => other (((pieceKind_space q).mpr h).trans same.symm))
            (hasPair_join some_ (spaced same) quotable.spaces)
        · exact pieceKind_text (hasPair_join some_ (broken same) quotable.breaks)
            (Bool.eq_false_iff.mpr fun h => other (((pieceKind_break q).mpr h).trans same.symm))
      rw [List.flatMap_cons]
      by_cases breaks : run.any isBreak = true
      · obtain ⟨p, among, break_⟩ := List.any_eq_true.mp breaks
        have same : k = 1 := (all p among).symm.trans ((pieceKind_break p).mpr break_)
        obtain ⟨b, bs, rfl⟩ := List.exists_cons_of_ne_nil some_
        have clean : ∀ p ∈ b :: bs, Cursor.isBreak p = true ∧ p ≠ .char '\r' := by
          intro p among
          have writable := quotable.writable p (List.mem_append_left t among)
          exact ⟨(isBreak_writable writable).trans (broken same p among), (writable_ne writable).1⟩
        rw [foldSingle, if_pos breaks] at here
        rw [rejoined, if_pos breaks, foldSingle, if_pos breaks, List.append_assoc _ _ [_],
          Cursor.past_append]
        rw [List.append_assoc] at here
        obtain ⟨q, x, front, shown⟩ := foldSingle_shown indent indent false r rest
          inner.writable (next (.inr same))
        have blanks : quotedBlanks start c = _ :=
          quotedBlanks_breaks deep (here.trans (congrArg _ front)) shown clean
        exact .blanks here (by rw [Cursor.isBlank, (clean b List.mem_cons_self).1, Bool.or_true])
          blanks (Cursor.past_shorter here (List.cons_ne_nil _ _)) (ih inner (Cursor.past_rest here))
      · have plain : rejoined run = run := if_neg breaks
        rw [plain]
        by_cases fold : run = [.char ' '] ∧ width < column ∧ (!first) = true ∧
          (!ps.isEmpty) = true
        · obtain rfl := fold.1
          have same : k = 0 := (all _ List.mem_cons_self).symm.trans (by decide)
          rw [foldSingle, if_neg breaks, if_pos fold] at here ⊢
          rw [List.append_assoc _ _ [_], Cursor.past_append]
          rw [List.append_assoc] at here
          obtain ⟨q, x, front, shown⟩ := foldSingle_shown indent indent false r rest
            inner.writable (next (.inl same))
          have feed : c.rest = .char '\n' :: [] ++ spaces indent ++ q :: x :=
            here.trans (congrArg _ front)
          have blanks : quotedBlanks start c = _ :=
            quotedBlanks_breaks deep feed shown (by simp; decide)
          exact .blanks here (by decide) blanks
            (Cursor.past_shorter here (List.cons_ne_nil _ _)) (ih inner (Cursor.past_rest here))
        · rw [foldSingle, if_neg breaks, if_neg fold] at here ⊢
          rw [List.append_assoc _ _ [_], Cursor.past_append]
          rw [List.append_assoc] at here
          have written := ih inner (Cursor.past_rest here)
          by_cases text : k = 2
          · exact tail_doubleQuotes
              (fun p among => quotable.writable p (List.mem_append_left t among))
              (fun p among => (all p among).trans text) here written
          · have same : k = 0 := by
              obtain ⟨p, among⟩ := List.exists_mem_of_ne_nil run some_
              by_contra other
              have space : isSpace p = false := Bool.eq_false_iff.mpr fun h =>
                other ((all p among).symm.trans ((pieceKind_space p).mpr h))
              have unbroken : isBreak p = false := Bool.eq_false_iff.mpr fun h =>
                breaks (List.any_eq_true.mpr ⟨p, among, h⟩)
              exact text ((all p among).symm.trans (pieceKind_text space unbroken))
            have unquoted : .char '\'' ∉ run := fun among =>
              absurd (spaced same _ among) (by decide)
            rw [doubleQuotes_plain unquoted] at here written ⊢
            obtain ⟨q, x, front, shown⟩ := foldSingle_shown indent
              (column + run.length) false r rest inner.writable (next (.inl same))
            obtain ⟨p, run, rfl⟩ := List.exists_cons_of_ne_nil some_
            obtain rfl : p = .char ' ' := by
              simpa [isSpace] using spaced same p List.mem_cons_self
            refine .blanks here (by decide) ?_ (Cursor.past_shorter here (List.cons_ne_nil _ _))
              written
            refine quotedBlanks_spaces (here.trans (congrArg _ front)) shown fun p among => ?_
            rw [Cursor.isSpaceOrTab, Bool.or_eq_true]
            exact .inl (spaced same p among)

end ApprovedOps.Yaml.Layout
