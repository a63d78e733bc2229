import ApprovedOps.Proofs.Dictionary
import ApprovedOps.Proofs.Files.Normal
import ApprovedOps.Proofs.Files.Placed

/-! # Writing into a tree

A tree is level if its directories have short paths and its files have longer ones. Then no
directory is in the way of a file, and no file is above another, so that each file that is to lie
below the directories can be written. The tree holds what was written last.
-/

namespace ApprovedOps.FileTree

/-- Are the paths of directories at most so long, and those of files longer? -/
structure Level (t : FileTree) (n : Nat) : Prop where
  made : ∀ p ∈ t.made, p.length ≤ n
  files : ∀ f ∈ t.files, n < f.1.length

/-- Is the path longer than that, and what is above it is not? -/
structure Fits (n : Nat) (path : Text) : Prop where
  long : n < (normal path).length
  above : (parent path).length ≤ n

variable {t t' : FileTree} {n : Nat} {path : Text} {bytes : List UInt8}

/-! ## Lengths -/

theorem withoutSlashes_length (p : Text) : (Path.withoutSlashes p).length ≤ p.length :=
  (List.rdropWhile_prefix _ p).length_le

theorem normal_length (r : Text) : (normal (.char '/' :: r)).length ≤ r.length + 1 := by
  have local_ : Text.dropPrefix? (.char '/' :: r) "memory://" = none := rfl
  have inner :
      (Path.withoutSlashes ((.char '/' :: r).dropWhile (· = .char '/'))).length ≤ r.length := by
    refine (withoutSlashes_length _).trans ?_
    rw [List.dropWhile_cons_of_pos (by simp)]
    exact (List.dropWhile_suffix _).length_le
  rw [normal, local_, Option.getD_none]
  dsimp only
  split
  · exact withoutSlashes_length _
  · split
    · exact Nat.zero_le _
    · exact Nat.succ_le_succ inner

theorem beforeLastSlash_length (p : Text) : (beforeLastSlash p).length ≤ p.length - 1 := by
  have rest := (List.dropWhile_suffix (l := p.reverse) (· ≠ CodePoint.char '/')).length_le
  rw [List.length_reverse] at rest
  rw [beforeLastSlash, List.length_reverse, List.length_tail]
  omega

theorem parent_le (path : Text) : (parent path).length ≤ max 1 (normal path).length := by
  have before := beforeLastSlash_length (normal path)
  have inner := (List.dropWhile_suffix (l := beforeLastSlash (normal path))
    (· = CodePoint.char '/')).length_le
  rw [parent, List.length_cons]
  omega

theorem beforeLastSlash_append {dir file : Text} (slashless : .char '/' ∉ file) :
    beforeLastSlash (dir ++ .char '/' :: file) = dir := by
  have skipped : file.reverse.dropWhile (· ≠ CodePoint.char '/') = [] :=
    List.dropWhile_eq_nil_iff.mpr fun c among => decide_eq_true fun slash =>
      slashless (slash ▸ List.mem_reverse.mp among)
  rw [beforeLastSlash, List.reverse_append, List.reverse_cons, List.append_assoc,
    List.dropWhile_append, skipped]
  simp

/-- What is above a path is no longer than its parent. -/
theorem ancestorsFrom_length {bound : Nat} {a : Text} (among : a ∈ ancestorsFrom bound path) :
    (normal a).length ≤ (parent path).length := by
  induction bound generalizing path with
  | zero => cases among
  | succ bound ih =>
      rw [ancestorsFrom] at among
      split at among
      · obtain rfl | higher := List.mem_cons.mp among
        · exact normal_length _
        · have up : (normal (parent path)).length ≤ (parent path).length := normal_length _
          have further := parent_le (parent path)
          have there := ih higher
          omega
      · cases among

/-! ## Writing -/

theorem Level.absent (level : t.Level n) (short : (normal path).length ≤ n) : ¬t.isFile path := by
  rw [isFile, file?]
  cases found : Dictionary.get? (normal path) t.files with
  | none => simp
  | some bytes =>
      have long : n < (normal path).length := level.files _ (Dictionary.mem_of_get? found)
      omega

theorem Level.unmade (level : t.Level n) (long : n < (normal path).length) : ¬t.isMade path := by
  rw [isMade, Bool.or_eq_true, decide_eq_true_eq, List.contains_iff_mem]
  rintro (root | made)
  · simp [root] at long
  · have short := level.made _ made
    omega

theorem write_fits (level : t.Level n) (fits : Fits n path) :
    t.write path bytes = .ok { t with files := Dictionary.insert (normal path) bytes t.files } := by
  have above : (ancestors path).find? t.isFile = none := by
    rw [List.find?_eq_none]
    intro a among
    exact level.absent ((ancestorsFrom_length among).trans fits.above)
  rw [write, if_neg (level.unmade fits.long), above]

theorem level_insert (level : t.Level n) (fits : Fits n path) :
    Level { t with files := Dictionary.insert (normal path) bytes t.files } n := by
  refine ⟨level.made, fun f among => ?_⟩
  obtain rfl | old := Dictionary.mem_insert among
  · exact fits.long
  · exact level.files f old

/-- A file whose directory is not too long, and which is itself long enough, fits. -/
theorem fits_below {dir file : Text} (ordinary : Ordinary dir) (plain : file.IsPlain)
    (some_ : file ≠ []) (short : (normal dir).length ≤ n)
    (long : n < (normal dir).length + file.length + 1) : Fits n (dir ++ .char '/' :: file) := by
  have whole := normal_below ordinary plain some_
  constructor
  · rw [whole, List.length_append, List.length_cons]
    omega
  · rw [parent, whole, beforeLastSlash_append plain.slashless, normal_ordinary ordinary,
      List.dropWhile_cons_of_pos (by simp), List.dropWhile_idempotent, ← normal_ordinary ordinary]
    exact short

/-! ## Making directories -/

/-- Where there are no files, directories can be made. -/
theorem makeChain_bare (bare : t.files = []) (paths : List Text) :
    ∃ t', t.makeChain paths = .ok t' ∧ t'.files = [] ∧ t.made ⊆ t'.made ∧
      (∀ p ∈ t'.made, p ∈ t.made ∨ ∃ q ∈ paths, p = normal q) ∧
      ∀ q, paths.head? = some q → t'.isMade q := by
  have noFile (q : Text) : ¬t.isFile q := by simp [isFile, file?, bare, Dictionary.get?]
  induction paths with
  | nil => exact ⟨t, rfl, bare, fun p among => among, fun p among => .inl among, by simp⟩
  | cons path above ih =>
      obtain ⟨t₁, made, bare', kept, only, -⟩ := ih
      rw [makeChain]
      split
      next there =>
        refine ⟨t, rfl, bare, fun p among => among, fun p among => .inl among, ?_⟩
        rintro q ⟨⟩
        exact there.resolve_left (noFile _)
      next =>
        have free : above.head?.filter t.isFile = none := by
          simp [Option.filter_eq_none_iff, noFile]
        rw [free, made]
        refine ⟨_, rfl, bare', fun p among => ?_, fun p among => ?_, ?_⟩
        · exact List.mem_append_left _ (kept among)
        · obtain old | new := List.mem_append.mp among
          · obtain old | ⟨q, higher, rfl⟩ := only p old
            · exact .inl old
            · exact .inr ⟨q, List.mem_cons_of_mem _ higher, rfl⟩
          · exact .inr ⟨path, List.mem_cons_self, List.mem_singleton.mp new⟩
        · rintro q ⟨⟩
          simp [isMade]

theorem makeDirectory_level (bare : t.files = []) (level : t.Level n) (some_ : normal path ≠ [])
    (short : (normal path).length ≤ n) :
    ∃ t', t.makeDirectory path = .ok t' ∧ t'.files = [] ∧ t'.Level n ∧ t.made ⊆ t'.made ∧
      t'.isMade path := by
  obtain ⟨t', made, bare', kept, only, there⟩ := makeChain_bare bare (path :: ancestors path)
  refine ⟨t', made, bare', ⟨fun p among => ?_, by simp [bare']⟩, kept, there path rfl⟩
  obtain old | ⟨q, higher, rfl⟩ := only p among
  · exact level.made p old
  · obtain rfl | higher := List.mem_cons.mp higher
    · exact short
    · have up := ancestorsFrom_length higher
      have further := parent_le path
      have long := List.length_pos_iff.mpr some_
      omega

end ApprovedOps.FileTree
