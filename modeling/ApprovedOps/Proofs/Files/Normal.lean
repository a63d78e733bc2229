import Mathlib.Data.List.DropRight
import Mathlib.Data.List.Infix
import Mathlib.Data.List.TakeWhile
import ApprovedOps.Files.Tree

/-! # How a tree knows its paths

An ordinary path is no address and does not end in a slash. The tree knows it with one slash in
front, and a file below it by the form of its directory, a slash and the name of the file.
-/

namespace ApprovedOps

/-! ## Parts of texts -/

namespace Text

theorem hasInfix_iff {t part : Text} : t.hasInfix part = true ↔ part <:+: t := by
  induction t with
  | nil => simp [hasInfix]
  | cons c t ih =>
      rw [hasInfix, Bool.or_eq_true, ih, List.isPrefixOf_iff_prefix, List.infix_cons_iff]

/-- May the text be a name in a directory, if it is not empty? -/
structure IsPlain (t : Text) : Prop where
  slashless : .char '/' ∉ t
  colons : ¬Text.ofString "::" <:+: t

instance (t : Text) : Decidable t.IsPlain :=
  decidable_of_iff (.char '/' ∉ t ∧ ¬t.hasInfix "::" = true)
    ⟨fun ⟨slashless, colons⟩ => ⟨slashless, fun h => colons (hasInfix_iff.mpr h)⟩,
      fun ⟨slashless, colons⟩ => ⟨slashless, fun h => colons (hasInfix_iff.mp h)⟩⟩

theorem isPlain_of_notMem {t : Text} (slash : .char '/' ∉ t) (colon : .char ':' ∉ t) : t.IsPlain :=
  ⟨slash, fun h => colon (h.mem (by decide))⟩

theorem isPlain_append {t u : Text} (plain : t.IsPlain) (slash : .char '/' ∉ u)
    (colon : .char ':' ∉ u) : IsPlain (t ++ u) := by
  refine ⟨by simp [plain.slashless, slash], fun h => ?_⟩
  obtain h | h | ⟨first, second, both, inside, after⟩ := List.infix_append_iff.mp h
  · exact plain.colons h
  · exact colon (h.mem (by decide))
  · -- the second part begins behind the colons, so it is empty
    cases second with
    | nil =>
        rw [List.append_nil] at both
        exact plain.colons (both ▸ inside.isInfix)
    | cons c second =>
        have among : c ∈ Text.ofString "::" := both ▸ by simp
        obtain rfl : c = .char ':' := by simpa [Text.ofString] using among
        exact colon (after.mem List.mem_cons_self)

end Text

namespace FileTree

/-- Is the path no address, and does it not end in a slash? -/
structure Ordinary (p : Text) : Prop where
  colons : ¬Text.ofString "::" <:+: p
  address : ¬Text.ofString "://" <:+: p
  last : ∃ c, p.getLast? = some c ∧ c ≠ .char '/'

variable {p dir file : Text}

theorem Ordinary.rest_ne_nil (h : Ordinary p) : p.dropWhile (· = .char '/') ≠ [] := by
  obtain ⟨c, last, other⟩ := h.last
  intro nothing
  exact other (by simpa using List.dropWhile_eq_nil_iff.mp nothing c (List.mem_of_getLast? last))

theorem withoutSlashes_eq {t : Text} {c : CodePoint} (last : t.getLast? = some c)
    (other : c ≠ .char '/') : Path.withoutSlashes t = t := by
  refine List.rdropWhile_eq_self_iff.mpr fun some_ slash => other ?_
  rw [List.getLast?_eq_getLast_of_ne_nil some_] at last
  cases last
  simpa using slash

/-- The tree knows an ordinary path with one slash in front. -/
theorem normal_ordinary (h : Ordinary p) : normal p = .char '/' :: p.dropWhile (· = .char '/') := by
  have local_ : Text.dropPrefix? p "memory://" = none := by
    cases dropped : Text.dropPrefix? p "memory://" with
    | none => rfl
    | some r =>
        have begins : "memory://" ++ r = p := List.isPrefixOf?_eq_some_iff_append_eq.mp dropped
        exact absurd (begins ▸ ⟨"memory", r, rfl⟩) h.address
  have inside : ¬(Text.hasInfix p "::" ∨ Text.hasInfix p "://") := by
    rw [Text.hasInfix_iff, Text.hasInfix_iff]
    exact not_or.mpr ⟨h.colons, h.address⟩
  have whole : Path.withoutSlashes (p.dropWhile (· = .char '/')) = p.dropWhile (· = .char '/') := by
    obtain ⟨c, last, other⟩ := h.last
    have parts := List.takeWhile_append_dropWhile (p := (· = .char '/')) (l := p)
    rw [← parts, List.getLast?_append_of_ne_nil _ h.rest_ne_nil] at last
    exact withoutSlashes_eq last other
  rw [normal, local_, Option.getD_none, if_neg inside]
  simp only [whole]
  rw [if_neg h.rest_ne_nil]

/-- A name below an ordinary path makes an ordinary path. -/
theorem ordinary_below (h : Ordinary dir) (plain : file.IsPlain) (some_ : file ≠ []) :
    Ordinary (dir ++ .char '/' :: file) := by
  refine ⟨fun colons => ?_, fun address => ?_, ?_⟩
  · obtain inside | inside | ⟨first, second, both, before, after⟩ := List.infix_append_iff.mp colons
    · exact h.colons inside
    · obtain first | inside := List.infix_cons_iff.mp inside
      · exact absurd (List.cons_prefix_cons.mp first).1 (by decide)
      · exact plain.colons inside
    · cases second with
      | nil =>
          rw [List.append_nil] at both
          exact h.colons (both ▸ before.isInfix)
      | cons c second =>
          obtain rfl := (List.cons_prefix_cons.mp after).1
          exact absurd (both ▸ by simp : CodePoint.char '/' ∈ Text.ofString "::") (by decide)
  · obtain inside | inside | ⟨first, second, both, before, after⟩ :=
      List.infix_append_iff.mp address
    · exact h.address inside
    · obtain first | inside := List.infix_cons_iff.mp inside
      · exact absurd (List.cons_prefix_cons.mp first).1 (by decide)
      · exact plain.slashless (inside.mem (by decide))
    · -- the directory does not end in a slash, and the name does not begin with one
      have parts : [.char ':', .char '/', .char '/'] = first ++ second := both
      simp only [List.cons_eq_append_iff, List.nil_eq_append_iff] at parts
      obtain ⟨rfl, rfl⟩ | ⟨_, rfl, ⟨rfl, rfl⟩ | ⟨_, rfl, ⟨rfl, rfl⟩ | ⟨_, rfl, rfl, rfl⟩⟩⟩ := parts
      · exact absurd (List.cons_prefix_cons.mp after).1 (by decide)
      · have begins := (List.cons_prefix_cons.mp after).2
        exact plain.slashless (begins.mem List.mem_cons_self)
      · obtain ⟨front, rfl⟩ := before
        obtain ⟨c, last, other⟩ := h.last
        rw [List.getLast?_append_of_ne_nil _ (by simp)] at last
        cases last
        exact other rfl
      · exact h.address before.isInfix
  · refine ⟨file.getLast some_, ?_, fun slash => plain.slashless (slash ▸ List.getLast_mem some_)⟩
    rw [List.getLast?_append_of_ne_nil _ (by simp), List.getLast?_cons_of_ne_nil some_,
      List.getLast?_eq_getLast_of_ne_nil some_]

/-- A file is known by the form of its directory, a slash and its name. -/
theorem normal_below (h : Ordinary dir) (plain : file.IsPlain) (some_ : file ≠ []) :
    normal (dir ++ .char '/' :: file) = normal dir ++ .char '/' :: file := by
  rw [normal_ordinary (ordinary_below h plain some_), normal_ordinary h, List.dropWhile_append,
    if_neg (by simpa using h.rest_ne_nil)]
  rfl

theorem ordinary_normal (h : Ordinary p) : Ordinary (normal p) := by
  have inside (r : Text) (outside : ¬.char ':' :: r <:+: p) : ¬.char ':' :: r <:+: normal p := by
    rw [normal_ordinary h, List.infix_cons_iff, not_or]
    refine ⟨fun first => ?_, fun within => ?_⟩
    · exact absurd (List.cons_prefix_cons.mp first).1 (by decide)
    · exact outside (within.trans (List.dropWhile_suffix _).isInfix)
  obtain ⟨c, last, other⟩ := h.last
  refine ⟨inside _ h.colons, inside _ h.address, c, ?_, other⟩
  have parts := List.takeWhile_append_dropWhile (p := (· = .char '/')) (l := p)
  rw [← parts, List.getLast?_append_of_ne_nil _ h.rest_ne_nil] at last
  rw [normal_ordinary h, List.getLast?_cons_of_ne_nil h.rest_ne_nil, last]

theorem normal_normal (h : Ordinary p) : normal (normal p) = normal p := by
  rw [normal_ordinary (ordinary_normal h), normal_ordinary h, List.dropWhile_cons_of_pos (by simp),
    List.dropWhile_idempotent]

end FileTree

end ApprovedOps
