import Mathlib.Data.List.Forall2
import ApprovedOps.Proofs.Json.Amounts
import ApprovedOps.Proofs.Json.Spelled

/-! # What trees mean

A tree means a value whose numbers are exact: every number of it stands for an amount, every string
spells a text, and only the words `null`, `true` and `false` mean something. What is written for the
value that a tree is read as means the same, but for the numbers that are rounded.
-/

namespace ApprovedOps

namespace Json

open Reader

/-- A JSON value with exact numbers. -/
inductive Exact where
  /-- The null value. -/
  | null
  /-- A truth value. -/
  | bool (b : Bool)
  /-- A number. -/
  | number (q : ℚ)
  /-- A string. -/
  | string (t : Text)
  /-- An array. -/
  | array (items : List Exact)
  /-- An object, with its members in order. -/
  | object (fields : List (Text × Exact))

/-- Are the names of every object different? -/
inductive Exact.Distinct : Exact → Prop where
  | null : Distinct .null
  | bool (b : Bool) : Distinct (.bool b)
  | number (q : ℚ) : Distinct (.number q)
  | string (t : Text) : Distinct (.string t)
  | array {items} : (∀ x ∈ items, Distinct x) → Distinct (.array items)
  | object {fields : List (Text × Exact)} : (fields.map Prod.fst).Nodup →
      (∀ f ∈ fields, Distinct f.2) → Distinct (.object fields)

namespace Tree

/-! ## Meanings -/

/-- Does the member mean the field, by what the value means? -/
inductive Member (each : Tree → Exact → Prop) : Text × Tree → Text × Exact → Prop where
  | mk {name v t x} : Spells name t → each v x → Member each (name, v) (t, x)

/-- Does the tree mean the value, if a number may mean what `N` allows? -/
inductive MeansBy (N : Text → ℚ → Prop) : Tree → Exact → Prop where
  | null : MeansBy N .null .null
  | word : MeansBy N (.word (Text.ofString "null") .null) .null
  | true : MeansBy N (.word (Text.ofString "true") (.bool true)) (.bool true)
  | false : MeansBy N (.word (Text.ofString "false") (.bool false)) (.bool false)
  | number {w q} : N w q → MeansBy N (.number w) (.number q)
  | string {body t} : Spells body t → MeansBy N (.string body) (.string t)
  | array {items xs} : List.Forall₂ (MeansBy N) items xs → MeansBy N (.array items) (.array xs)
  | object {members fields} : List.Forall₂ (Member (MeansBy N)) members fields →
      MeansBy N (.object members) (.object fields)

/-- Does the tree mean the value? -/
abbrev Means : Tree → Exact → Prop :=
  MeansBy Amounts

mutual

/-- The tokens of a tree that are values. -/
def leaves : Tree → List Tree
  | .null => [.null]
  | .word w v => [.word w v]
  | .number w => [.number w]
  | .string body => [.string body]
  | .array items => leavesOf items
  | .object members => leavesIn members

/-- The tokens of some trees that are values. -/
def leavesOf : List Tree → List Tree
  | [] => []
  | v :: vs => v.leaves ++ leavesOf vs

/-- The tokens of some members that are values. -/
def leavesIn : List (Text × Tree) → List Tree
  | [] => []
  | (_, v) :: ms => v.leaves ++ leavesIn ms

end

theorem mem_leavesOf {u : Tree} {items : List Tree} :
    u ∈ leavesOf items ↔ ∃ v ∈ items, u ∈ v.leaves := by
  induction items with
  | nil => simp [leavesOf]
  | cons v items ih => simp [leavesOf, ih]

theorem mem_leavesIn {u : Tree} {members : List (Text × Tree)} :
    u ∈ leavesIn members ↔ ∃ m ∈ members, u ∈ m.2.leaves := by
  induction members with
  | nil => simp [leavesIn]
  | cons m members ih => simp only [leavesIn, List.mem_append, ih, List.mem_cons, exists_eq_or_imp]

end Tree

mutual

/-- The tree of what is written for a value. -/
def tree : Json → Tree
  | .null => .null
  | .bool true => .word (Text.ofString "true") (.bool true)
  | .bool false => .word (Text.ofString "false") (.bool false)
  | .integer i => .number (Text.ofInt i)
  | .real (.finite negative m e) => .number ((Binary64.finite negative m e).render .json)
  | .real x => .word (x.render .json) (.real x)
  | .string t => .string (t.flatMap escape)
  | .array items => .array (trees items)
  | .object fields => .object (treesIn fields)

/-- The trees of what is written for some values. -/
def trees : List Json → List Tree
  | [] => []
  | v :: vs => v.tree :: trees vs

/-- The members of what is written for some fields. -/
def treesIn : List (Text × Json) → List (Text × Tree)
  | [] => []
  | (key, v) :: fields => (key.flatMap escape, v.tree) :: treesIn fields

end

/-! ## Numbers -/

theorem means_integer {i : Int} {y : Exact} :
    (integer i).tree.Means y ↔ ∃ r, y = .number r ∧ Shown (.integer i) r := by
  constructor
  · rintro ⟨⟩
    rename_i r amounts
    exact ⟨r, rfl, shown_integer.mpr (amounts_unique amounts (amounts_ofInt i))⟩
  · rintro ⟨r, rfl, shown⟩
    rw [shown_integer.mp shown]
    exact .number (amounts_ofInt i)

/-- The words for what has no digits mean nothing. -/
theorem not_means_real {w : Text} {x : Binary64} {y : Exact} : ¬(Tree.word w (.real x)).Means y :=
  nofun

theorem means_real {x : Binary64} {y : Exact} (proper : x.Proper) :
    (real x).tree.Means y ↔ ∃ r, y = .number r ∧ Shown (.real x) r := by
  cases x with
  | finite negative m e =>
      have amounts := amounts_render negative proper
      constructor
      · rintro ⟨⟩
        rename_i r amounts'
        rw [amounts_unique amounts' amounts]
        exact ⟨_, rfl, .real proper⟩
      · rintro ⟨r, rfl, ⟨⟩⟩
        exact .number amounts
  | infinite negative => exact ⟨fun means => absurd means not_means_real, nofun⟩
  | nan => exact ⟨fun means => absurd means not_means_real, nofun⟩

namespace Tree

/-- What is written for a number that was read means what the number is rounded to. -/
theorem means_number {w : Text} {q : ℚ} {v : Json} (amounts : Amounts w q)
    (value : (Tree.number w).value = .ok v) (y : Exact) :
    v.tree.Means y ↔ (Tree.number w).MeansBy Rounded y := by
  have shown : (Tree.number w).MeansBy Rounded y ↔ ∃ r, y = .number r ∧ Shown v r := by
    constructor
    · rintro ⟨⟩
      rename_i r rounded
      exact ⟨r, rfl, (rounded_iff amounts value r).mp rounded⟩
    · rintro ⟨r, rfl, shown⟩
      exact .number ((rounded_iff amounts value r).mpr shown)
  rw [shown]
  obtain ⟨negative, ds, fs, power, pieces, -⟩ := amounts_pieces amounts
  obtain ⟨-, rfl⟩ | ⟨-, rfl⟩ := pieces_value pieces value
  · exact means_integer
  · exact means_real (Binary64.ofDecimal_proper _ _ _)

/-! ## Values -/

/-- Is what is written for what the tree is read as what the tree means with rounded numbers? -/
def WrittenRounded (v : Tree) : Prop :=
  ∀ x w, v.Means x → x.Distinct → v.value = .ok w → ∀ y, w.tree.Means y ↔ v.MeansBy Rounded y

theorem items_rounded {items : List Tree} {xs : List Exact} {ws : List Json}
    (each : ∀ v ∈ items, v.WrittenRounded) (means : List.Forall₂ Means items xs)
    (distinct : ∀ x ∈ xs, x.Distinct) (values_ : Tree.values items = .ok ws) (ys : List Exact) :
    List.Forall₂ Means (trees ws) ys ↔ List.Forall₂ (MeansBy Rounded) items ys := by
  induction means generalizing ws ys with
  | nil =>
      cases values_
      rw [trees, List.forall₂_nil_left_iff, List.forall₂_nil_left_iff]
  | @cons v x items xs first rest ih =>
      obtain ⟨here, each⟩ := List.forall_mem_cons.mp each
      obtain ⟨distinct_, others⟩ := List.forall_mem_cons.mp distinct
      rw [Tree.values] at values_
      obtain ⟨w, value_, mapped⟩ := except_bind_ok values_
      obtain ⟨ws, rest_, rfl⟩ := except_map_ok mapped
      have same := here x w first distinct_ value_
      have later := ih each others rest_
      simp only [trees, List.forall₂_cons_left_iff, same, later]

/-- Members of different names become fields in their order. -/
theorem fields_new {members : List (Text × Tree)} {before all : Dictionary Json}
    (distinct : (before.map Prod.fst ++ members.map fun m => text m.1).Nodup)
    (h : Tree.fields before members = .ok all) :
    ∃ fields, all = before ++ fields ∧
      List.Forall₂ (fun m f => text m.1 = f.1 ∧ m.2.value = .ok f.2) members fields := by
  induction members generalizing before with
  | nil =>
      cases h
      exact ⟨[], (List.append_nil _).symm, .nil⟩
  | cons m members ih =>
      obtain ⟨name, v⟩ := m
      rw [Tree.fields] at h
      obtain ⟨w, value_, h⟩ := except_bind_ok h
      have new : text name ∉ before.map Prod.fst := fun old =>
        (List.nodup_append.mp distinct).2.2 _ old _ List.mem_cons_self rfl
      rw [Dictionary.insert_new new] at h
      obtain ⟨fields, rfl, each⟩ := ih (by simpa using distinct) h
      exact ⟨(text name, w) :: fields, by simp, .cons ⟨rfl, value_⟩ each⟩

theorem member_iff {N : Text → ℚ → Prop} {name t : Text} {v : Tree} {y : Exact} :
    Member (MeansBy N) (name, v) (t, y) ↔ Spells name t ∧ v.MeansBy N y :=
  ⟨fun ⟨spells, means⟩ => ⟨spells, means⟩, fun ⟨spells, means⟩ => ⟨spells, means⟩⟩

theorem spells_iff {name key t : Text} (spells : Spells name key) : Spells name t ↔ t = key :=
  ⟨fun spells' => spells_unique spells' spells, fun same => same ▸ spells⟩

/-- The names of members are those of the fields that they mean. -/
theorem names_spelled {each : Tree → Exact → Prop} {members : List (Text × Tree)}
    {fields : List (Text × Exact)} (means : List.Forall₂ (Member each) members fields) :
    (members.map fun m => text m.1) = fields.map Prod.fst := by
  induction means with
  | nil => rfl
  | cons first rest ih =>
      obtain ⟨spells, -⟩ := first
      rw [List.map_cons, List.map_cons, ih, spells_text spells]

theorem members_rounded {members : List (Text × Tree)} {fields : List (Text × Json)}
    {xs : List (Text × Exact)} (each : ∀ m ∈ members, m.2.WrittenRounded)
    (means : List.Forall₂ (Member Means) members xs) (distinct : ∀ f ∈ xs, f.2.Distinct)
    (values_ : List.Forall₂ (fun m f => text m.1 = f.1 ∧ m.2.value = .ok f.2) members fields)
    (ys : List (Text × Exact)) :
    List.Forall₂ (Member Means) (treesIn fields) ys ↔
      List.Forall₂ (Member (MeansBy Rounded)) members ys := by
  induction means generalizing fields ys with
  | nil =>
      cases values_
      rw [treesIn, List.forall₂_nil_left_iff, List.forall₂_nil_left_iff]
  | @cons m x members xs first rest ih =>
      obtain ⟨name, v⟩ := m
      obtain ⟨key, x⟩ := x
      obtain ⟨spells, means⟩ := member_iff.mp first
      obtain ⟨here, each⟩ := List.forall_mem_cons.mp each
      obtain ⟨distinct_, others⟩ := List.forall_mem_cons.mp distinct
      obtain ⟨⟨key', w⟩, fields, ⟨rfl, value_⟩, rest_, rfl⟩ := List.forall₂_cons_left_iff.mp values_
      obtain rfl : text name = key := spells_text spells
      have same := here x w means distinct_ value_
      have later := ih each others rest_
      have field (f : Text × Exact) : Member Means ((text name).flatMap escape, w.tree) f ↔
          Member (MeansBy Rounded) (name, v) f := by
        obtain ⟨t, y⟩ := f
        rw [member_iff, member_iff, spells_iff spells, spells_iff (spells_escape _)]
        exact and_congr_right fun _ => same y
      simp only [treesIn, List.forall₂_cons_left_iff, field, later]

/-- What is written for what a tree is read as means what the tree means, with its numbers
    rounded. -/
theorem means_rounded (v : Tree) : v.WrittenRounded := by
  induction v using Tree.induct with
  | null =>
      rintro x w ⟨⟩ distinct ⟨⟩ y
      exact ⟨fun | .null => .null, fun | .null => .null⟩
  | word w v =>
      rintro x w' means distinct ⟨⟩ y
      cases means with
      | word => exact ⟨fun | .null => .word, fun | .word => .null⟩
      | «true» => exact ⟨fun | .true => .true, fun | .true => .true⟩
      | «false» => exact ⟨fun | .false => .false, fun | .false => .false⟩
  | number w =>
      rintro x v ⟨⟩ distinct value y
      rename_i q amounts
      exact means_number amounts value y
  | string body =>
      rintro x w ⟨⟩ distinct ⟨⟩ y
      rename_i t spells
      obtain rfl := spells_text spells
      constructor
      · rintro ⟨⟩
        rename_i t' spells'
        rw [spells_unique spells' (spells_escape _)]
        exact .string spells
      · rintro ⟨⟩
        rename_i t' spells'
        rw [spells_unique spells' spells]
        exact .string (spells_escape _)
  | array items ih =>
      rintro x w ⟨⟩ ⟨⟩ value y
      rename_i xs means distinct
      obtain ⟨ws, values_, rfl⟩ := except_map_ok value
      have rounded := items_rounded ih means distinct values_
      constructor
      · rintro ⟨⟩
        rename_i ys each
        exact .array ((rounded ys).mp each)
      · rintro ⟨⟩
        rename_i ys each
        exact .array ((rounded ys).mpr each)
  | object members ih =>
      rintro x w ⟨⟩ ⟨⟩ value y
      rename_i xs means names distinct
      obtain ⟨all, fields_, rfl⟩ := except_map_ok value
      rw [← names_spelled means] at names
      obtain ⟨fields, rfl, values_⟩ := @fields_new members [] all names fields_
      have rounded := members_rounded ih means distinct values_
      constructor
      · rintro ⟨⟩
        rename_i ys each
        exact .object ((rounded ys).mp each)
      · rintro ⟨⟩
        rename_i ys each
        exact .object ((rounded ys).mpr each)

/-! ## Numbers that are kept -/

theorem items_kept {items : List Tree} {xs : List Exact} (means : List.Forall₂ Means items xs)
    (each : ∀ v ∈ items, ∀ x, v.Means x →
      (v.MeansBy Rounded x ↔ ∀ w, Tree.number w ∈ v.leaves → Kept w)) :
    List.Forall₂ (MeansBy Rounded) items xs ↔ ∀ w, Tree.number w ∈ leavesOf items → Kept w := by
  induction means with
  | nil => simp [leavesOf]
  | @cons v x items xs first rest ih =>
      obtain ⟨here, others⟩ := List.forall_mem_cons.mp each
      rw [List.forall₂_cons, here x first, ih others]
      simp only [leavesOf, List.mem_append, or_imp, forall_and]

theorem members_kept {members : List (Text × Tree)} {xs : List (Text × Exact)}
    (means : List.Forall₂ (Member Means) members xs)
    (each : ∀ m ∈ members, ∀ x, m.2.Means x →
      (m.2.MeansBy Rounded x ↔ ∀ w, Tree.number w ∈ m.2.leaves → Kept w)) :
    List.Forall₂ (Member (MeansBy Rounded)) members xs ↔
      ∀ w, Tree.number w ∈ leavesIn members → Kept w := by
  induction means with
  | nil => simp [leavesIn]
  | @cons m x members xs first rest ih =>
      obtain ⟨name, v⟩ := m
      obtain ⟨key, x⟩ := x
      obtain ⟨spells, means⟩ := member_iff.mp first
      obtain ⟨here, others⟩ := List.forall_mem_cons.mp each
      rw [List.forall₂_cons, member_iff, ih others, and_iff_right spells]
      simp only [here x means, leavesIn, List.mem_append, or_imp, forall_and]

/-- Rounding changes nothing exactly if every number is kept. -/
theorem meansBy_rounded (v : Tree) : ∀ x, v.Means x →
    (v.MeansBy Rounded x ↔ ∀ w, Tree.number w ∈ v.leaves → Kept w) := by
  induction v using Tree.induct with
  | null =>
      rintro x ⟨⟩
      simp [leaves, MeansBy.null]
  | word w v =>
      intro x means
      have none_ : ∀ u, Tree.number u ∉ (Tree.word w v).leaves := by simp [leaves]
      refine iff_of_true ?_ fun u among => absurd among (none_ u)
      cases means with
      | word => exact .word
      | «true» => exact .true
      | «false» => exact .false
  | number w =>
      rintro x ⟨⟩
      rename_i q amounts
      simp only [leaves, List.mem_singleton, Tree.number.injEq, forall_eq]
      rw [← rounded_iff_kept amounts]
      exact ⟨fun | .number rounded => rounded, .number⟩
  | string body =>
      rintro x ⟨⟩
      rename_i t spells
      simp [leaves, MeansBy.string spells]
  | array items ih =>
      rintro x ⟨⟩
      rename_i xs means
      rw [leaves, ← items_kept means ih]
      exact ⟨fun | .array each => each, .array⟩
  | object members ih =>
      rintro x ⟨⟩
      rename_i xs means
      rw [leaves, ← members_kept means ih]
      exact ⟨fun | .object each => each, .object⟩

end Tree

end Json

end ApprovedOps
