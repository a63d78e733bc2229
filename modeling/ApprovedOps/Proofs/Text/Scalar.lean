import ApprovedOps.Text.CodePoint

/-! # Texts without lone surrogates -/

namespace ApprovedOps

/-- Can the code point be written? -/
def CodePoint.isScalar : CodePoint → Bool
  | .char _ => true
  | .surrogate _ => false

namespace Text

/-- Has the text no lone surrogate? -/
def Scalar (t : Text) : Prop :=
  ∀ p ∈ t, p.isScalar = true

@[simp]
theorem scalar_nil : Scalar [] :=
  List.forall_mem_nil _

@[simp]
theorem scalar_cons {p : CodePoint} {t : Text} :
    Scalar (p :: t) ↔ p.isScalar = true ∧ Scalar t :=
  List.forall_mem_cons

@[simp]
theorem scalar_append {s t : Text} : Scalar (s ++ t) ↔ Scalar s ∧ Scalar t :=
  List.forall_mem_append

@[simp]
theorem scalar_reverse {t : Text} : Scalar t.reverse ↔ Scalar t := by
  simp [Scalar]

@[simp]
theorem isScalar_char (c : Char) : (CodePoint.char c).isScalar = true := rfl

theorem Scalar.of_subset {s t : Text} (h : Scalar t) (sub : s ⊆ t) : Scalar s :=
  fun p among => h p (sub among)

theorem scalar_flatten {ts : List Text} : Scalar ts.flatten ↔ ∀ t ∈ ts, Scalar t := by
  simp only [Scalar, List.mem_flatten]
  exact ⟨fun h t among p inside => h p ⟨t, among, inside⟩,
    fun h p ⟨t, among, inside⟩ => h t among p inside⟩

theorem scalar_flatMap {α : Type} {as : List α} {f : α → Text} :
    Scalar (as.flatMap f) ↔ ∀ a ∈ as, Scalar (f a) := by
  rw [List.flatMap_def, scalar_flatten, List.forall_mem_map]

theorem scalar_ofString (s : String) : Scalar (ofString s) := by
  intro p among
  obtain ⟨c, -, rfl⟩ := List.mem_map.mp among
  rfl

/-- A text can be written just when it has no lone surrogate. -/
theorem chars?_isSome (t : Text) : t.chars?.isSome = true ↔ Scalar t := by
  induction t with
  | nil => simp [chars?]
  | cons p r ih =>
      cases p with
      | char c => simpa [chars?] using ih
      | surrogate => simp [chars?, CodePoint.isScalar]

theorem mem_join {sep : Text} {ts : List Text} {p : CodePoint} (among : p ∈ join sep ts) :
    p ∈ sep ∨ ∃ t ∈ ts, p ∈ t := by
  induction ts using join.induct with
  | case1 => cases among
  | case2 t => exact .inr ⟨t, List.mem_cons_self, among⟩
  | case3 t ts some_ ih =>
      rw [join.eq_3 _ _ _ some_, List.append_assoc] at among
      obtain here | among := List.mem_append.mp among
      · exact .inr ⟨t, List.mem_cons_self, here⟩
      · obtain here | later := List.mem_append.mp among
        · exact .inl here
        · obtain between | ⟨u, inside, here⟩ := ih later
          · exact .inl between
          · exact .inr ⟨u, List.mem_cons_of_mem t inside, here⟩

theorem scalar_join {sep : Text} {ts : List Text} (h : Scalar sep) (texts : ∀ t ∈ ts, Scalar t) :
    Scalar (join sep ts) := by
  intro p among
  obtain between | ⟨t, inside, here⟩ := mem_join among
  · exact h p between
  · exact texts t inside p here

end Text

end ApprovedOps
