import ApprovedOps.Proofs.Yaml.Places
import ApprovedOps.Yaml.Layout

/-! # What the styles of scalars keep

A text that is written in one of the styles is read again as itself, but for its next-line controls:
unless they are escaped, they are read as line feeds, and between single quotes a line feed that
stands alone is a space. So a text is kept exactly if it is between double quotes or has no
next-line control.
-/

namespace ApprovedOps.Yaml.Layout

variable {p : CodePoint} {s t : Text}

/-- The next-line control. -/
def nextLine : CodePoint :=
  .char '\u0085'

/-- Line breaks between quotes as they are read: a line feed that stands alone becomes a space, and
    one in front of others is dropped. -/
def joined : Text → Text
  | [] => []
  | b :: bs =>
    (if [softened b] ≠ [.char '\n'] then [softened b]
      else if bs.map softened = [] then [.char ' '] else []) ++ bs.map softened

/-- A piece of a scalar between single quotes as it is read. -/
def rejoined (piece : Text) : Text :=
  if piece.any isBreak then joined piece else piece

/-- A text as it is read again after it has been written. -/
def reread (t : Text) : Text :=
  match styleOf t with
  | .plain | .double => t
  | .single => (pieces t).flatMap rejoined
  | .literal => t.map softened

/-! ## Classes of code points -/

theorem softened_eq_self (other : p ≠ nextLine) : softened p = p := by
  rw [softened, if_neg]
  exact fun value => other (CodePoint.value_inj value)

theorem softened_ne (p : CodePoint) : softened p ≠ nextLine := by
  rw [softened]
  split
  · decide
  · next other =>
      rintro rfl
      exact other rfl

theorem map_softened (other : nextLine ∉ t) : t.map softened = t := by
  rw [List.map_congr_left fun p among => softened_eq_self (ne_of_mem_of_not_mem among other)]
  exact List.map_id t

theorem notMem_softened (t : Text) : nextLine ∉ t.map softened := by
  intro among
  obtain ⟨p, -, same⟩ := List.mem_map.mp among
  exact softened_ne p same

theorem isBreak_eq (other : p ≠ .char '\r') : isBreak p = Cursor.isBreak p := by
  have feed : (p = .char '\n') = (p.value = 0x0A) :=
    propext ⟨fun h => by rw [h]; rfl, fun h => CodePoint.value_inj h⟩
  have return_ : p.value ≠ 0x0D := fun h => other (CodePoint.value_inj h)
  exact Bool.eq_iff_iff.mpr (by simp [isBreak, Cursor.isBreak, feed, return_])

/-- What is written as itself is none of the code points that a reader treats in a special way. -/
theorem writable_ne (writable : isWritable p = true) :
    p ≠ .char '\r' ∧ p ≠ .char '\t' ∧ p ≠ .char '\uFEFF' := by
  refine ⟨?_, ?_, ?_⟩ <;> rintro rfl <;> exact absurd writable (by decide)

theorem isBreak_writable (writable : isWritable p = true) : Cursor.isBreak p = isBreak p :=
  (isBreak_eq (writable_ne writable).1).symm

theorem hasPair_split {first second : CodePoint → Bool} {p q : CodePoint}
    (h : hasPair first second (s ++ p :: q :: t) = false) :
    first p = false ∨ second q = false := by
  induction s with
  | nil =>
      rw [List.nil_append, hasPair, Bool.or_eq_false_iff, Bool.and_eq_false_iff] at h
      exact h.1
  | cons a s ih =>
      cases s with
      | nil =>
          rw [List.singleton_append, hasPair, Bool.or_eq_false_iff] at h
          exact ih h.2
      | cons b s =>
          rw [List.cons_append, List.cons_append, hasPair, Bool.or_eq_false_iff] at h
          exact ih h.2

/-! ## Runs of a kind -/

/-- A text is divided into the runs of the code points of one kind. -/
inductive Divided {κ : Type} (kind : CodePoint → κ) : Text → List Text → Prop
  /-- Nothing. -/
  | nil : Divided kind [] []
  /-- A run, with another kind after it. -/
  | cons {k : κ} {run t : Text} {runs : List Text} : run ≠ [] → (∀ p ∈ run, kind p = k) →
      (∀ p ∈ t.head?, kind p ≠ k) → Divided kind t runs → Divided kind (run ++ t) (run :: runs)

section Divided

variable {κ : Type} {kind : CodePoint → κ} {c d : CodePoint} {run : Text} {rest : List Text}

theorem Divided.flatten {rs : List Text} (h : Divided kind t rs) : rs.flatten = t := by
  induction h with
  | nil => rfl
  | cons _ _ _ _ ih => rw [List.flatten_cons, ih]

theorem Divided.ne_nil {rs : List Text} (h : Divided kind t rs) : ∀ run ∈ rs, run ≠ [] := by
  induction h with
  | nil => exact List.forall_mem_nil _
  | cons some_ _ _ _ ih => exact List.forall_mem_cons.mpr ⟨some_, ih⟩

theorem divided_one (kind : CodePoint → κ) (c : CodePoint) : Divided kind [c] [[c]] :=
  .cons (k := kind c) (t := []) (List.cons_ne_nil c []) (by simp) (by simp) .nil

theorem Divided.same (h : Divided kind t ((d :: run) :: rest)) (same : kind c = kind d) :
    Divided kind (c :: t) ((c :: d :: run) :: rest) := by
  cases h with
  | cons _ all ends more =>
      obtain ⟨rfl, alike⟩ := List.forall_mem_cons.mp all
      exact .cons (List.cons_ne_nil _ _)
        (List.forall_mem_cons.mpr ⟨same, all⟩) ends more

theorem Divided.other (h : Divided kind t ((d :: run) :: rest)) (other : kind c ≠ kind d) :
    Divided kind (c :: t) ([c] :: (d :: run) :: rest) := by
  refine .cons (k := kind c) (List.cons_ne_nil c []) (by simp) ?_ h
  cases h with
  | cons _ _ _ _ => simpa using fun same : kind d = kind c => other same.symm

theorem runs_divided (class_ : CodePoint → Bool) (t : Text) :
    Divided class_ t (runs class_ t) := by
  induction t with
  | nil => exact .nil
  | cons c t ih =>
      rw [runs]
      split
      · next none_ =>
          obtain rfl : t = [] := by rw [← ih.flatten, none_]; rfl
          exact divided_one class_ c
      · next empty =>
          rw [empty] at ih
          cases ih with
          | cons some_ _ _ _ => exact absurd rfl some_
      · next runs_ =>
          rw [runs_] at ih
          split
          · exact ih.same ‹_›
          · exact ih.other ‹_›

theorem pieces_divided (t : Text) : Divided pieceKind t (pieces t) := by
  induction t with
  | nil => exact .nil
  | cons c t ih =>
      rw [pieces]
      split
      · next none_ =>
          obtain rfl : t = [] := by rw [← ih.flatten, none_]; rfl
          exact divided_one pieceKind c
      · next empty =>
          rw [empty] at ih
          cases ih with
          | cons some_ _ _ _ => exact absurd rfl some_
      · next pieces_ =>
          rw [pieces_] at ih
          split
          · exact ih.same ‹_›
          · exact ih.other ‹_›

end Divided

/-! ## What is read again -/

theorem allowsSingle_of_style (h : styleOf t = .single) :
    allowsSingle t = true ∧ .char '\n' ∉ t := by
  rw [styleOf] at h
  split at h
  · split at h <;> cases h
  · next feedless =>
      refine ⟨?_, by simpa using feedless⟩
      split at h
      · cases h
      · split at h
        · assumption
        · cases h

theorem allowsPlain_of_style (h : styleOf t = .plain) : allowsPlain t = true := by
  rw [styleOf] at h
  split at h
  · split at h <;> cases h
  · split at h
    · assumption
    · split at h <;> cases h

theorem allowsLiteral_of_style (h : styleOf t = .literal) : allowsLiteral t = true := by
  rw [styleOf] at h
  split at h
  · split at h
    · assumption
    · cases h
  · split at h
    · cases h
    · split at h <;> cases h

/-- A plain scalar is on one line. -/
theorem unbroken_of_plain (h : allowsPlain t = true) : ∀ p ∈ t, isBreak p = false := by
  simp only [allowsPlain, Bool.and_eq_true, Bool.not_eq_true', List.any_eq_false] at h
  intro p among
  simpa using h.1.1.1.1.2 p among

theorem joined_ne_nil (some_ : t ≠ []) : joined t ≠ [] := by
  cases t with
  | nil => exact absurd rfl some_
  | cons b bs =>
      rw [joined]
      split
      · simp
      · split
        · simp
        · simpa using ‹¬bs.map softened = []›

theorem rejoined_ne_nil (some_ : t ≠ []) : rejoined t ≠ [] := by
  rw [rejoined]
  split
  · exact joined_ne_nil some_
  · exact some_

theorem notMem_rejoined (t : Text) : nextLine ∉ rejoined t := by
  rw [rejoined]
  split
  · cases t with
    | nil => exact List.not_mem_nil
    | cons b bs =>
        have first : nextLine ∉ [softened b] := by simpa using (softened_ne b).symm
        have space : nextLine ∉ [CodePoint.char ' '] := by decide
        rw [joined, List.mem_append, not_or]
        refine ⟨?_, notMem_softened bs⟩
        split
        · exact first
        · split
          · exact space
          · exact List.not_mem_nil
  · next unbroken =>
      intro among
      exact unbroken (List.any_eq_true.mpr ⟨nextLine, among, rfl⟩)

theorem rejoined_eq_self (feedless : .char '\n' ∉ t) (other : nextLine ∉ t) : rejoined t = t := by
  rw [rejoined]
  split
  · cases t with
    | nil => rfl
    | cons b bs =>
        obtain ⟨first, rest⟩ := not_or.mp (mt List.mem_cons.mpr other)
        have feed : [softened b] ≠ [.char '\n'] := by
          rw [softened_eq_self (Ne.symm first)]
          exact fun same => feedless (by rw [List.singleton_inj.mp same]; exact List.mem_cons_self)
        rw [joined, if_pos feed, softened_eq_self (Ne.symm first), map_softened rest]
        rfl
  · rfl

/-- A text is kept by its style if it is between double quotes or has no next-line control. -/
theorem reread_eq_self_iff (t : Text) :
    reread t = t ↔ styleOf t = .double ∨ nextLine ∉ t := by
  rw [reread]
  split
  · next plain =>
      have unbroken := unbroken_of_plain (allowsPlain_of_style plain)
      exact iff_of_true rfl (.inr fun among => absurd (unbroken nextLine among) (by decide))
  · next double => exact iff_of_true rfl (.inl double)
  · next single =>
      have feedless := (allowsSingle_of_style single).2
      have whole := (pieces_divided t).flatten
      rw [single]
      constructor
      · intro same
        rw [← same, List.mem_flatMap]
        exact .inr fun ⟨piece, _, among⟩ => notMem_rejoined piece among
      · intro kept
        have other : nextLine ∉ t := kept.resolve_left (by decide)
        have each (piece : Text) (member : piece ∈ pieces t) : rejoined piece = piece := by
          refine rejoined_eq_self (fun among => feedless ?_) (fun among => other ?_) <;>
            exact whole ▸ List.mem_flatten.mpr ⟨piece, member, among⟩
        rw [List.flatMap_def, List.map_congr_left each, List.map_id', whole]
  · next literal =>
      rw [literal]
      constructor
      · intro same
        rw [← same]
        exact .inr (notMem_softened t)
      · intro kept
        exact map_softened (kept.resolve_left (by decide))

/-- Only the empty text is read as empty. -/
theorem reread_eq_nil_iff (t : Text) : reread t = [] ↔ t = [] := by
  rw [reread]
  split
  · rfl
  · rfl
  · constructor
    · intro empty
      have none_ : pieces t = [] := List.eq_nil_iff_forall_not_mem.mpr fun piece member =>
        rejoined_ne_nil ((pieces_divided t).ne_nil piece member)
          (List.flatMap_eq_nil_iff.mp empty piece member)
      rw [← (pieces_divided t).flatten, none_]
      rfl
    · rintro rfl
      rfl
  · exact List.map_eq_nil_iff

end ApprovedOps.Yaml.Layout
