import ApprovedOps.Proofs.Store.Rewritten

/-! # What lies directly in a directory

A file name without slashes lies directly in a directory of the store, wherever the store is, and a
tree knows the file by its directory. The file of a namespace may also lie elsewhere: an absolute
namespace stands for itself.
-/

namespace ApprovedOps

open FileTree (normal)

namespace Path

/-- Is the path that of a file directly in the directory? -/
def IsChild (dir path : Text) : Prop :=
  ∃ file : Text, file ≠ [] ∧ .char '/' ∉ file ∧ path = dir ++ .char '/' :: file

/-- Do the files of the namespace lie directly in the directory? The namespace has no slashes, or it
    is absolute and begins with the directory itself. -/
def LeadsInto (dir ns : Text) : Prop :=
  .char '/' ∉ ns ∨
    dir.head? = some (.char '/') ∧ ∃ rest : Text, .char '/' ∉ rest ∧ ns = dir ++ .char '/' :: rest

theorem not_isChild {dir path : Text} (other : ¬Text.startsWith path dir = true) :
    ¬IsChild dir path := by
  rintro ⟨file, -, -, rfl⟩
  exact other (Text.startsWith_iff.mpr (List.prefix_append dir _))

end Path

namespace FileName

theorem slash_space {ns : Text} : .char '/' ∈ space ns ↔ .char '/' ∈ ns := by
  unfold space
  split
  next empty => rw [empty]
  next => simp

theorem slash_compose {ns name ext : Text} (tail : Tail (name ++ ext)) :
    .char '/' ∈ compose ns name ext ↔ .char '/' ∈ ns := by
  rw [compose_space, List.mem_append, slash_space]
  exact or_iff_left tail.slash

end FileName

namespace Shelf

open FileName (space compose Tail)
open ApprovedOps.Path (IsChild LeadsInto)

variable {s : Shelf} {word file : Text}

/-! ## Paths -/

/-- The file of a namespace lies directly in a directory of the store just when the namespace leads
    into it. -/
theorem isChild_iff (root : Text) (h : word.isName = true) {ns name ext : Text}
    (tail : Tail (name ++ ext)) :
    IsChild (Path.join root word) (Path.join (Path.join root word) (compose ns name ext)) ↔
      LeadsInto (Path.join root word) ns := by
  have some_ : compose ns name ext ≠ [] := by
    rw [FileName.compose_space]
    exact List.append_ne_nil_of_right_ne_nil _ tail.some_
  by_cases absolute : (compose ns name ext).head? = some (.char '/')
  · -- such a file is one of an absolute namespace, and its path is its name
    have whole : Path.join (Path.join root word) (compose ns name ext) = compose ns name ext := by
      obtain ⟨r, begins⟩ := List.head?_eq_some_iff.mp absolute
      rw [Path.join, if_pos (Text.startsWith_iff.mpr ⟨r, begins.symm⟩)]
    have among : .char '/' ∈ ns := (FileName.slash_compose tail).mp (List.mem_of_head? absolute)
    have nonempty : ns ≠ [] := List.ne_nil_of_mem among
    have begins : ns.head? = some (.char '/') := by
      rw [compose, if_neg nonempty] at absolute
      simpa [List.head?_append, List.head?_eq_some_head nonempty] using absolute
    have behind : .char '/' ∉ CodePoint.char '.' :: (name ++ ext) := by simp [tail.slash]
    obtain ⟨up, rest, split, last⟩ := FileName.splitLast?_mem among
    have composed :
        compose ns name ext = up ++ .char '/' :: (rest ++ .char '.' :: (name ++ ext)) := by
      rw [compose, if_neg nonempty, split]
      simp
    rw [whole]
    constructor
    · rintro ⟨file, -, slashless, same⟩
      obtain ⟨rfl, -⟩ := FileName.append_sep_inj (by simp [last, tail.slash]) slashless
        (composed.symm.trans same)
      refine .inr ⟨?_, rest, last, split⟩
      obtain ⟨c, there, -⟩ := directory_last root h
      have full : Path.join root word ≠ [] := by
        rintro none_
        simp [none_] at there
      rw [split, List.head?_append_of_ne_nil _ full] at begins
      exact begins
    · rintro (slashless | ⟨-, rest', last', split'⟩)
      · exact absurd among slashless
      · obtain ⟨rfl, rfl⟩ := FileName.append_sep_inj last last' (split.symm.trans split')
        exact ⟨_, by simp, by simp [last, tail.slash], composed⟩
  · rw [directory_join root h absolute]
    constructor
    · rintro ⟨file, -, slashless, same⟩
      obtain rfl := (List.cons.inj (List.append_cancel_left same)).2
      exact .inl fun among => slashless ((FileName.slash_compose tail).mpr among)
    · rintro (slashless | ⟨begins, rest, -, split⟩)
      · exact ⟨_, some_, fun among => slashless ((FileName.slash_compose tail).mp among), rfl⟩
      · -- an absolute namespace makes an absolute path
        refine absurd ?_ absolute
        obtain ⟨r, dir⟩ := List.head?_eq_some_iff.mp begins
        rw [compose, split, dir]
        simp

/-! ## As a tree knows them -/

/-- A tree knows a file by its last name, behind the name of its directory. -/
theorem file_known (root : Text) (h : word.isName = true)
    (foreign : ∀ c, word.head? = some c → c ∉ Text.ofString "memory://") :
    ∃ known : Prop → Text,
      (normal (Path.join root word) = known False ++ word) ∧
      ∀ file : Text, .char '/' ∉ file → file ≠ [] →
        normal (Path.join root word ++ .char '/' :: file) =
          known (Text.ofString "::" <:+: file) ++ word ++ .char '/' :: file := by
  obtain ⟨front, joined⟩ := join_root root
  choose known _ same using FileTree.normal_ends front
  have ending := FileName.tail_name [] h nofun nofun
  rw [List.append_nil] at ending
  obtain ⟨c, r, begins, colon, slash⟩ := ending.head
  refine ⟨known, ?_, fun file slashless some_ => ?_⟩
  · rw [joined word h]
    have apart := iff_false_intro (FileTree.not_isAddress ending.colon)
    exact same False word
      ⟨ending.head, by simpa using ending.last [], Text.dropPrefix_apart foreign⟩ apart
  · have address :
        FileTree.IsAddress (word ++ .char '/' :: file) ↔ Text.ofString "::" <:+: file := by
      rw [FileTree.isAddress_behind ending.slash ending.colon, FileTree.IsAddress,
        List.infix_cons_iff, List.infix_cons_iff]
      constructor
      · rintro ((first | inside) | (first | inside))
        · exact absurd (List.cons_prefix_cons.mp first).1 (by decide)
        · exact inside
        · exact absurd (List.cons_prefix_cons.mp first).1 (by decide)
        · exact absurd (inside.mem (by decide)) slashless
      · exact fun inside => .inl (.inr inside)
    have last : ∃ c, (word ++ CodePoint.char '/' :: file).getLast? = some c ∧ c ≠ .char '/' := by
      rw [List.getLast?_append_of_ne_nil _ (by simp), List.getLast?_cons_of_ne_nil some_,
        List.getLast?_eq_getLast_of_ne_nil some_]
      exact ⟨_, rfl, fun slash => slashless (slash ▸ List.getLast_mem some_)⟩
    have ends : FileTree.Ends front (word ++ .char '/' :: file) := by
      refine ⟨⟨c, r ++ .char '/' :: file, by rw [begins]; rfl, colon, slash⟩, last,
        Text.dropPrefix_apart fun d first => foreign d ?_⟩
      rw [begins] at first ⊢
      exact first
    rw [joined word h, List.append_assoc, same _ _ ends address]
    simp

theorem queries_foreign :
    ∀ c, (Text.ofString "queries").head? = some c → c ∉ Text.ofString "memory://" := by
  decide

theorem fragments_foreign :
    ∀ c, (Text.ofString "fragments").head? = some c → c ∉ Text.ofString "memory://" := by
  decide

end Shelf

end ApprovedOps
