import Mathlib.Data.List.DropRight
import ApprovedOps.Project.Workspace
import ApprovedOps.Proofs.Except
import ApprovedOps.Proofs.Files.Path
import ApprovedOps.Proofs.Store.Paths
import ApprovedOps.Proofs.Store.Sequential

/-! # Directories of settings and of stores

The settings of a project make the directories of its store, which joins the names of its directories
to its root anew. One joins names and drops what says nothing, the other joins texts. A disk resolves
what is left over, so both lead to the same places there. A tree in memory resolves nothing: there the
store works in other directories if its root is written without a name and without a slash in front.
-/

namespace ApprovedOps

/-- Do two paths lead to the same place of a file system, whatever is in it? -/
def Medium.Same (p q : Text) : Medium → Prop
  | .disk => ∀ d : Disk, d.locate (d.address p) = d.locate (d.address q)
  | .memory => FileTree.normal p = FileTree.normal q

theorem Medium.same_of_eq {p q : Text} (m : Medium) (h : p = q) : m.Same p q := by
  subst h
  cases m with
  | disk => exact fun _ => rfl
  | memory => rfl

/-! ## Places on a disk -/

namespace Disk

variable (d : Disk)

/-- A name that says nothing can be left out in front of another one. -/
theorem follow_blank {blank : Text} (h : Path.isName blank = false) (place : List Text)
    (name : Text) (names : List Text) :
    d.follow place (blank :: name :: names) = d.follow place (name :: names) := by
  have nothing : blank = [] ∨ blank = [.char '.'] := by
    by_contra other
    simp_all [Path.isName]
  have short : isTooLong blank = false := by
    obtain rfl | rfl := nothing <;> decide
  rw [follow]
  by_cases there : d.isDirectoryAt place = true
  · simp [there, short, nothing]
  · rw [if_neg there, follow, if_neg there]

theorem follow_names (names : List Text) (place : List Text) (last : Text) :
    d.follow place (names ++ [last]) = d.follow place (names.filter Path.isName ++ [last]) := by
  induction names generalizing place with
  | nil => rfl
  | cons name names ih =>
      cases h : Path.isName name with
      | false =>
          rw [List.filter_cons_of_neg (by simp [h]), ← ih]
          obtain ⟨next, rest, same⟩ := List.exists_cons_of_ne_nil (l := names ++ [last]) (by simp)
          rw [List.cons_append, same]
          exact d.follow_blank h place next rest
      | true =>
          rw [List.filter_cons_of_pos h, List.cons_append, List.cons_append, follow, follow]
          simp only [ih]

theorem locate_absolute {path : Text} (absolute : path.head? = some (.char '/')) :
    d.locate path = d.follow [] (Text.splitOn (.char '/') path) := by
  obtain ⟨rest, rfl⟩ := List.head?_eq_some_iff.mp absolute
  rfl

/-- The slashes between a directory and a name count as one. -/
theorem locate_slashes {front word : Text} (absolute : front = [] ∨ front.head? = some (.char '/'))
    (slashless : .char '/' ∉ word) (k : Nat) :
    d.locate (front ++ List.replicate (k + 1) (.char '/') ++ word) =
      d.locate (front ++ .char '/' :: word) := by
  have start (rest : Text) : (front ++ .char '/' :: rest).head? = some (.char '/') := by
    obtain rfl | first := absolute
    · rfl
    · rw [List.head?_append, first, Option.some_or]
  have between : Text.splitOn (.char '/') (List.replicate k (.char '/') ++ word) =
      List.replicate k [] ++ [word] := by
    induction k with
    | zero => exact Text.splitOn_single slashless
    | succ k ih =>
        rw [List.replicate_succ, List.cons_append, Text.splitOn, if_pos rfl, ih]
        rfl
  have blanks : (List.replicate k ([] : Text)).filter Path.isName = [] := by
    simp [Path.isName]
  rw [List.append_assoc, List.replicate_succ, List.cons_append, locate_absolute d (start _),
    locate_absolute d (start _), Text.splitOn_append, between, Text.splitOn_last front slashless,
    ← List.append_assoc, follow_names, List.filter_append, blanks, List.append_nil, ← follow_names]

/-- An absolute path that does not end in a slash is an address as it is. -/
theorem address_absolute {path : Text} (absolute : path.head? = some (.char '/'))
    (last : path.getLast? ≠ some (.char '/')) : d.address path = path := by
  obtain ⟨rest, rfl⟩ := List.head?_eq_some_iff.mp absolute
  have bare : withoutProtocol (.char '/' :: rest) = .char '/' :: rest := by
    simp [withoutProtocol, Text.dropPrefix?, Text.ofString, List.isPrefixOf?]
  have start : Text.startsWith (.char '/' :: rest) [.char '/'] = true := rfl
  have whole : Path.withoutSlashes (.char '/' :: rest) = .char '/' :: rest := by
    refine List.rdropWhile_eq_self_iff.mpr fun some_ slash => last ?_
    rw [List.getLast?_eq_getLast_of_ne_nil some_, of_decide_eq_true slash]
  simp only [address, bare, start, if_true, whole, reduceCtorEq, if_false]

/-- A name is the same address with the mark of the working directory in front of it. -/
theorem address_dot {word : Text} (h : Text.isName word = true) :
    d.address (.char '.' :: .char '/' :: word) = d.address word := by
  have slashless : CodePoint.char '/' ∉ word := Text.isName_notMem h rfl
  have colonless : CodePoint.char ':' ∉ word := Text.isName_notMem h rfl
  have noDrop {start : Text} (outside : ∃ c ∈ start, c ∉ word) : Text.dropPrefix? word start = none := by
    obtain ⟨c, inside, outside⟩ := outside
    cases dropped : Text.dropPrefix? word start with
    | none => rfl
    | some rest =>
        have whole : start ++ rest = word := List.isPrefixOf?_eq_some_iff_append_eq.mp dropped
        exact absurd (whole ▸ List.mem_append_left _ inside) outside
  have bare : withoutProtocol word = word := by
    have colon {start : Text} (inside : CodePoint.char ':' ∈ start) :=
      noDrop ⟨_, inside, colonless⟩
    simp [withoutProtocol, colon, Text.ofString]
  have bareDot : withoutProtocol (.char '.' :: .char '/' :: word) = .char '.' :: .char '/' :: word := by
    simp [withoutProtocol, Text.dropPrefix?, Text.ofString, List.isPrefixOf?]
  have noSlash : Text.startsWith word [.char '/'] = false := by
    rw [← Bool.not_eq_true, Text.startsWith_slash]
    exact Shelf.head?_slashless slashless
  have dropped : Text.dropPrefix? (.char '.' :: .char '/' :: word) "./" = some word := by
    simp [Text.dropPrefix?, Text.ofString, List.isPrefixOf?]
  have kept : Text.dropPrefix? word "./" = none := noDrop ⟨.char '/', by decide, slashless⟩
  have noSlash' : Text.startsWith (.char '.' :: .char '/' :: word) [.char '/'] = false := rfl
  simp only [address, bare, bareDot, noSlash, noSlash', dropped, kept, Option.getD_some,
    Option.getD_none, if_neg Bool.false_ne_true]

end Disk

/-! ## The two ways to name a directory -/

/-- A path with slashes in front or names, and names without slashes behind them. -/
structure Path.Proper (p : Path) : Prop where
  anchor : ∃ k ≤ 2, p.anchor = List.replicate k (.char '/')
  names : ∀ n ∈ p.names, Path.isName n = true ∧ .char '/' ∉ n

namespace Path

variable {p : Path} {word t : Text}

theorem proper_ofText (t : Text) : (ofText t).Proper :=
  ⟨ofText_anchor t, fun _ => ofText_names⟩

theorem join_snoc {names : List Text} (some_ : names ≠ []) (word : Text) :
    Text.join [.char '/'] (names ++ [word]) = Text.join [.char '/'] names ++ .char '/' :: word := by
  induction names with
  | nil => exact absurd rfl some_
  | cons n names ih =>
      cases names with
      | nil => simp [Text.join]
      | cons m names =>
          have later := ih (List.cons_ne_nil m names)
          rw [List.cons_append] at later
          simp only [List.cons_append, Text.join, later, List.append_assoc]

/-- The text of the directory under a word. -/
theorem below_word (p : Path) (word : Text) : (p.below ⟨[], [word]⟩).toText =
    if p.names = [] then p.anchor ++ word else p.toText ++ .char '/' :: word := by
  have whole : (p.below ⟨[], [word]⟩).toText = p.anchor ++ Text.join [.char '/'] (p.names ++ [word]) := by
    rw [below, if_neg (by simp [isAbsolute]), toText, if_neg (by simp)]
  rw [whole]
  split
  next nothing => simp [nothing, Text.join]
  next some_ => rw [join_snoc some_, toText, if_neg fun none => some_ none.2, List.append_assoc]

/-- A store joins a word to its root, without the slashes at the end of the root. -/
theorem join_ofPath (t : Text) (h : Text.isName word = true) :
    join (Shelf.ofPath t).root word = withoutSlashes t ++ .char '/' :: word := by
  rw [join_relative _ (Shelf.head?_slashless (Text.isName_notMem h rfl)), Shelf.ofPath]
  by_cases nothing : withoutSlashes t = []
  · rw [nothing]
    rfl
  · have open_ : ¬Text.endsWith (withoutSlashes t) [.char '/'] = true := by
      rw [Text.endsWith_iff]
      intro ends
      have slash := ends.getLast (List.cons_ne_nil _ _)
      exact List.rdropWhile_last_not (· = CodePoint.char '/') t nothing (decide_eq_true slash.symm)
    simp only [if_neg nothing, if_neg (not_or.mpr ⟨nothing, open_⟩)]

theorem withoutSlashes_append (t : Text) :
    ∃ k, t = withoutSlashes t ++ List.replicate k (.char '/') := by
  have slashes : ∀ c ∈ t.rtakeWhile (· = .char '/'), c = .char '/' :=
    fun c among => of_decide_eq_true (List.mem_rtakeWhile_imp (p := (· = CodePoint.char '/')) among)
  refine ⟨(t.rtakeWhile (· = .char '/')).length, ?_⟩
  rw [← List.eq_replicate_of_mem slashes]
  exact List.rdropWhile_append_rtakeWhile.symm

/-- Nothing is left of a root that has slashes in front and no names. -/
theorem withoutSlashes_root {k : Nat} (anchor : p.anchor = List.replicate k (.char '/'))
    (nameless : p.names = []) (other : p ≠ {}) : 0 < k ∧ withoutSlashes p.toText = [] := by
  cases k with
  | zero => exact absurd (Path.mk.injEq .. ▸ ⟨anchor, nameless⟩) other
  | succ k =>
      have text : p.toText = List.replicate (k + 1) (.char '/') := by
        rw [toText, if_neg (by simp [anchor]), nameless, anchor, Text.join, List.append_nil]
      refine ⟨Nat.succ_pos k, ?_⟩
      rw [text, withoutSlashes, List.reverse_replicate, List.dropWhile_replicate]
      simp

/-- Both ways to name a directory differ in the number of slashes in front of its word, if the root
    has a name or slashes in front. -/
theorem below_slashes (anchor : ∃ k, p.anchor = List.replicate k (.char '/')) (other : p ≠ {})
    (word : Text) : ∃ k, (p.below ⟨[], [word]⟩).toText =
      withoutSlashes p.toText ++ List.replicate (k + 1) (.char '/') ++ word := by
  rw [below_word]
  split
  next nameless =>
    obtain ⟨k, slashes⟩ := anchor
    obtain ⟨some_, bare⟩ := withoutSlashes_root slashes nameless other
    exact ⟨k - 1, by rw [bare, slashes, List.nil_append, Nat.sub_add_cancel some_]⟩
  next some_ =>
    obtain ⟨k, same⟩ := withoutSlashes_append p.toText
    refine ⟨k, ?_⟩
    conv_lhs => rw [same]
    simp [List.replicate_succ']

theorem Proper.withoutSlashes (proper : p.Proper) (some_ : p.names ≠ []) :
    withoutSlashes p.toText = p.toText := by
  obtain ⟨front, last, names⟩ := (List.eq_nil_or_concat p.names).resolve_left some_
  obtain ⟨before, text⟩ : ∃ before : Text, p.toText = before ++ last := by
    rw [toText, if_neg fun none => some_ none.2, names]
    cases front with
    | nil => exact ⟨p.anchor, rfl⟩
    | cons n front =>
        refine ⟨p.anchor ++ (Text.join [.char '/'] (n :: front) ++ [.char '/']), ?_⟩
        rw [List.concat_eq_append, join_snoc (List.cons_ne_nil n front)]
        simp
  obtain ⟨name, slashless⟩ := proper.names last (by simp [names])
  have last_ : last ≠ [] := by
    rintro rfl
    cases name
  refine FileTree.withoutSlashes_eq (c := last.getLast last_) ?_ fun slash => slashless ?_
  · rw [text, List.getLast?_append_of_ne_nil _ last_, List.getLast?_eq_getLast_of_ne_nil last_]
  · exact slash ▸ List.getLast_mem last_

/-- Below a proper path with a name, both ways give the same text. -/
theorem Proper.below_eq (proper : p.Proper) (some_ : p.names ≠ []) (h : Text.isName word = true) :
    (p.below ⟨[], [word]⟩).toText = join (Shelf.ofPath p.toText).root word := by
  rw [join_ofPath _ h, proper.withoutSlashes some_, below_word, if_neg some_]

theorem below_nothing (word : Text) : (below {} ⟨[], [word]⟩).toText = word := by
  rw [below_word]
  rfl

theorem join_nothing (h : Text.isName word = true) :
    join (Shelf.ofPath (toText {})).root word = .char '.' :: .char '/' :: word := by
  rw [join_ofPath _ h]
  rfl

end Path

/-- On a disk both ways to name a directory lead to the same place. -/
theorem Medium.same_disk {p : Path} {word : Text}
    (rooted : p.Proper ∨ p.anchor = [.char '/']) (h : Text.isName word = true) :
    Medium.disk.Same (p.below ⟨[], [word]⟩).toText (Path.join (Shelf.ofPath p.toText).root word) := by
  have slashless : CodePoint.char '/' ∉ word := Text.isName_notMem h rfl
  by_cases nothing : p = {}
  · subst nothing
    rw [Path.below_nothing, Path.join_nothing h]
    exact fun d => congrArg d.locate (d.address_dot h).symm
  by_cases absolute : p.anchor = []
  · -- without slashes in front there is a name
    have proper : p.Proper := rooted.resolve_right (by simp [absolute])
    have some_ : p.names ≠ [] := fun none => nothing (Path.mk.injEq .. ▸ ⟨absolute, none⟩)
    exact same_of_eq _ (proper.below_eq some_ h)
  · have anchor : ∃ k, p.anchor = List.replicate k (.char '/') := by
      obtain proper | one := rooted
      · exact proper.anchor.imp fun _ => And.right
      · exact ⟨1, one⟩
    obtain ⟨k, slashes⟩ := Path.below_slashes anchor nothing word
    have front : Path.withoutSlashes p.toText = [] ∨
        (Path.withoutSlashes p.toText).head? = some (.char '/') := by
      obtain ⟨c, rest, text⟩ : ∃ c rest, p.anchor = c :: rest := List.exists_cons_of_ne_nil absolute
      obtain ⟨j, same⟩ := anchor
      have first : p.toText.head? = some (.char '/') := by
        rw [Path.toText, if_neg fun none => absolute none.1, same]
        cases j with
        | zero => exact absurd same absolute
        | succ j => rfl
      have start : Path.withoutSlashes p.toText <+: p.toText := List.rdropWhile_prefix _ p.toText
      rw [List.head?_eq_some_iff] at first ⊢
      obtain ⟨more, whole⟩ := first
      rw [whole] at start ⊢
      exact (List.prefix_cons_iff.mp start).imp_right fun ⟨t, same, _⟩ => ⟨t, same⟩
    have some_ := Text.isName_ne_nil h
    have absolute' (rest : Text) :
        (Path.withoutSlashes p.toText ++ .char '/' :: rest).head? = some (.char '/') := by
      obtain none | first := front
      · rw [none]
        rfl
      · rw [List.head?_append, first, Option.some_or]
    have last (rest : Text) : (Path.withoutSlashes p.toText ++ .char '/' :: (rest ++ word)).getLast? ≠
        some (.char '/') := by
      rw [List.append_cons, ← List.append_assoc, List.getLast?_append_of_ne_nil _ some_]
      exact fun slash => slashless (List.mem_of_getLast? slash)
    intro d
    rw [Path.join_ofPath _ h, d.address_absolute (absolute' word) (last []), slashes,
      ← d.locate_slashes front slashless k, List.append_assoc, List.replicate_succ,
      List.cons_append, d.address_absolute (absolute' _) (last _)]

/-- In a tree both ways to name a directory lead to the same place, unless the root says nothing. -/
theorem Medium.same_memory {p : Path} {word : Text} (proper : p.Proper)
    (h : Text.isName word = true) :
    Medium.memory.Same (p.below ⟨[], [word]⟩).toText (Path.join (Shelf.ofPath p.toText).root word) ↔
      p ≠ {} := by
  have slashless : CodePoint.char '/' ∉ word := Text.isName_notMem h rfl
  have colonless : CodePoint.char ':' ∉ word := Text.isName_notMem h rfl
  have some_ := Text.isName_ne_nil h
  have ordinary (k : Nat) : FileTree.Ordinary (List.replicate k (.char '/') ++ word) := by
    have outside (part : Text) : ¬.char ':' :: part <:+: List.replicate k (.char '/') ++ word := by
      intro inside
      have among := inside.mem (List.mem_cons_self (a := CodePoint.char ':'))
      simp [colonless] at among
    refine ⟨outside _, outside _, word.getLast some_, ?_, fun slash => slashless ?_⟩
    · rw [List.getLast?_append_of_ne_nil _ some_, List.getLast?_eq_getLast_of_ne_nil some_]
    · exact slash ▸ List.getLast_mem some_
  have known (k : Nat) : FileTree.normal (List.replicate k (.char '/') ++ word) = .char '/' :: word := by
    have whole : word.dropWhile (· = .char '/') = word := by
      refine List.dropWhile_eq_self_iff.mpr fun long slash => slashless ?_
      exact of_decide_eq_true slash ▸ List.getElem_mem long
    rw [FileTree.normal_ordinary (ordinary k), List.dropWhile_append_of_pos (by simp), whole]
  constructor
  · rintro same rfl
    rw [Path.below_nothing, Path.join_nothing h] at same
    have dot : FileTree.Ordinary [.char '.'] :=
      ⟨fun h => absurd (Text.hasInfix_iff.mpr h) (by decide),
        fun h => absurd (Text.hasInfix_iff.mpr h) (by decide), .char '.', rfl, by decide⟩
    have lengths := congrArg List.length
      ((known 0).symm.trans (same.trans (FileTree.normal_below dot (Text.isName_plain h) some_)))
    rw [List.length_append, List.length_cons] at lengths
    have short : (FileTree.normal [.char '.']).length = 2 := by decide
    omega
  · intro other
    by_cases nameless : p.names = []
    · obtain ⟨k, -, anchor⟩ := proper.anchor
      obtain ⟨-, bare⟩ := Path.withoutSlashes_root anchor nameless other
      rw [Medium.Same, Path.below_word, if_pos nameless, Path.join_ofPath _ h, bare, anchor, known k]
      exact (known 1).symm
    · exact same_of_eq _ (proper.below_eq nameless h)

/-! ## The roots of stores -/

namespace Settings

/-- Is this what the environment, or else a file of settings, says of where the store is? -/
def TellsRoot (env : Environment) (file : Toml.Entries) (t : Text) : Prop :=
  nonEmpty env.root = some t ∨ nonEmpty env.root = none ∧ ∃ v,
    get? (Toml.Entries.get? "allowlist" file) "root" = .ok v ∧
      v.getD (.string defaultStore) = .string t

variable {env : Environment} {d : Disk} {root : Path} {file : Toml.Entries} {start : Option Text}
  {s : Settings}

theorem storePath_ok {onDisk : Bool} {given : Value} {p : Path}
    (h : storePath root onDisk given = .ok p) :
    ∃ t, given = .string t ∧ p = if onDisk then root.below (.ofText t) else .ofText t := by
  cases given with
  | string t =>
      cases h
      exact ⟨t, rfl, rfl⟩
  | _ => cases h

theorem ofFile_store (h : ofFile env root file = .ok s) : ∃ t, TellsRoot env file t ∧
    s.store = if s.protocol = defaultProtocol then root.below (.ofText t) else .ofText t := by
  rw [ofFile] at h
  cases told : nonEmpty env.root
  all_goals simp only [told] at h
  case' none => obtain ⟨v, said, h⟩ := except_bind_ok h
  all_goals obtain ⟨given, same, h⟩ := except_bind_ok h
  case' none =>
    have tells (t : Text) (text : given = .string t) : TellsRoot env file t :=
      .inr ⟨told, v, said, (Except.ok.inj same).trans text⟩
  case' some u =>
    have tells (t : Text) (text : given = .string t) : TellsRoot env file t :=
      .inl (told.trans (congrArg some (Value.string.inj ((Except.ok.inj same).trans text))))
  -- from here on it does not matter who tells the root
  all_goals
    obtain ⟨fs, -, h⟩ := except_bind_ok h
    obtain ⟨store, placed, h⟩ := except_bind_ok h
    obtain ⟨t, text, place⟩ := storePath_ok placed
    obtain ⟨written, -, h⟩ := except_bind_ok h
    obtain ⟨number, -, h⟩ := except_bind_ok h
    obtain ⟨size, -, h⟩ := except_bind_ok h
    split at h
    next => cases h
    next =>
      obtain ⟨name, -, h⟩ := except_bind_ok h
      have made : s.store = store ∧
          s.protocol = (fs.getD (.string defaultProtocol)).display [] := by
        split at h
        next =>
          obtain ⟨level, -, h⟩ := except_bind_ok h
          cases h
          exact ⟨rfl, rfl⟩
        next =>
          obtain ⟨entry, -, h⟩ := except_bind_ok h
          obtain ⟨level, -, h⟩ := except_bind_ok h
          cases h
          exact ⟨rfl, rfl⟩
      refine ⟨t, tells t text, ?_⟩
      rw [made.1, made.2, place]
      simp only [decide_eq_true_eq]

theorem findRoot_below (d : Disk) (start : Path) :
    (findRoot d start).anchor = start.anchor ∧ (findRoot d start).names ⊆ start.names := by
  rw [findRoot]
  cases found : start.withParents.find? fun p => d.exists? (p.below fileName).toText with
  | none => exact ⟨rfl, List.Subset.refl _⟩
  | some root =>
      obtain ⟨i, -, rfl⟩ := List.mem_map.mp (List.mem_of_find?_eq_some found)
      exact ⟨rfl, List.take_subset _ _⟩

theorem load_store (h : load env d start = .ok s) : ∃ root file t, readFile d root = .ok file ∧
    TellsRoot env file t ∧ (s.store.Proper ∨ s.store.anchor = [.char '/']) ∧
    (s.protocol ≠ defaultProtocol → s.store = .ofText t) := by
  obtain ⟨file, read, h⟩ := except_bind_ok h
  obtain ⟨t, told, store⟩ := ofFile_store h
  refine ⟨_, file, t, read, told, ?_, fun other => by rw [store, if_neg other]⟩
  rw [store]
  have text := Path.proper_ofText t
  split
  next =>
    rw [Path.below]
    split
    next => exact .inl text
    next relative =>
      obtain ⟨anchor, names⟩ := findRoot_below d
        ((nonEmpty start).elim ⟨[.char '/'], d.working⟩ Path.ofText)
      cases given : nonEmpty start with
      | none =>
          rw [given] at anchor
          exact .inr anchor
      | some u =>
          have start_ := Path.proper_ofText u
          rw [given] at anchor names
          refine .inl ⟨anchor.symm ▸ start_.anchor, fun n among => ?_⟩
          exact (List.mem_append.mp among).elim (fun h => start_.names n (names h)) (text.names n)
  next => exact .inl text

/-- On a disk, the directories that the settings make and those that the store works in are the same
    ones. In a tree in memory they are just when the root of the store, as the environment or the file
    of settings writes it, has a name or a slash in front. -/
theorem directories_agree {w : Workspace} {m : Medium} (loaded : w.settings start = .ok s)
    (medium : s.medium = .ok m) : ∃ root file t, readFile w.disk root = .ok file ∧
      TellsRoot w.environment file t ∧ (m = .memory → s.store = .ofText t) ∧
      ∀ {σ : Type} [Files σ] (files : σ),
        let shelf := (s.openStore files).machine.shelf
        (m.Same s.queries.toText shelf.queries ∧ m.Same s.fragments.toText shelf.fragments ↔
          m = .disk ∨ Path.ofText t ≠ {}) := by
  obtain ⟨root, file, t, read, told, rooted, given⟩ := load_store loaded
  have store (memory : m = .memory) : s.store = .ofText t := by
    subst memory
    refine given fun same => ?_
    rw [Settings.medium, same] at medium
    cases medium
  refine ⟨root, file, t, read, told, store, fun files => ?_⟩
  have shelf : (s.openStore files).machine.shelf = .ofPath s.store.toText :=
    (Store.openAt_place files s.store.toText s.readOnly s.queueSize .attentive []).1
  rw [shelf]
  cases m with
  | disk =>
      exact iff_of_true ⟨Medium.same_disk rooted Shelf.queries_isName,
        Medium.same_disk rooted Shelf.fragments_isName⟩ (.inl rfl)
  | memory =>
      have proper := Path.proper_ofText t
      have records := Medium.same_memory proper Shelf.queries_isName
      have parts := Medium.same_memory proper Shelf.fragments_isName
      rw [← store rfl] at records parts ⊢
      exact (and_congr records parts).trans (by simp)

/-- A project in the working directory, with a text as its file of settings. -/
def projectOf (settings : String) : Workspace where
  disk := {
    files := [(["p", "allowlist.toml"], (Utf8.encode? settings).getD [])]
    directories := [["p"]]
    working := ["p"] }

/-- A project whose store is in memory under a root. -/
def inMemory (root : String) : Workspace :=
  projectOf ("[allowlist]\nroot = \"" ++ root ++ "\"\nfs = \"memory\"")

/-- Dots and slashes around a name say nothing, also in memory. -/
theorem directories_agree_of_name :
    ∃ s, (inMemory ".//gw/.").settings none = .ok s ∧ s.medium = .ok .memory ∧
      Medium.memory.Same s.queries.toText (s.openStore ({} : FileTree)).machine.shelf.queries := by
  have read : (((inMemory ".//gw/.").settings none).toOption.map fun s => (s.protocol, s.store)) =
      some (Text.ofString "memory", ⟨[], ["gw"]⟩) := by decide +kernel
  obtain ⟨s, found, parts⟩ := Option.map_eq_some_iff.mp read
  obtain ⟨protocol, store⟩ := Prod.mk.inj parts
  have loaded := except_ok found
  have medium : s.medium = .ok .memory := by rw [Settings.medium, protocol]; rfl
  obtain ⟨root, file, t, -, -, given, agree⟩ := directories_agree loaded medium
  have named : Path.ofText t ≠ {} := by
    rw [← given rfl, store]
    decide
  exact ⟨s, loaded, medium, ((agree ({} : FileTree)).mpr (.inr named)).1⟩

/-- A single dot is the root of a store in memory that works in other directories than those that its
    settings make. -/
theorem directories_apart :
    ∃ s w, (inMemory ".").settings none = .ok s ∧ (inMemory ".").ensure s = (w, none) ∧
      w.memory.made = ["/queries", "/fragments"] ∧
      ¬Medium.memory.Same s.queries.toText (s.openStore w.memory).machine.shelf.queries ∧
      Files.isDirectory w.memory (s.openStore w.memory).machine.shelf.queries = false := by
  have read : (((inMemory ".").settings none).toOption.map fun s => (s.protocol, s.store)) =
      some (Text.ofString "memory", {}) := by decide +kernel
  obtain ⟨s, found, parts⟩ := Option.map_eq_some_iff.mp read
  obtain ⟨protocol, store⟩ := Prod.mk.inj parts
  have medium : s.medium = .ok .memory := by rw [Settings.medium, protocol]; rfl
  have records : s.queries.toText = "queries" := by rw [queries, store]; rfl
  have parts : s.fragments.toText = "fragments" := by rw [fragments, store]; rfl
  have shelf (files : FileTree) : (s.openStore files).machine.shelf.queries = "./queries" := by
    rw [openStore, (Store.openAt_place ..).1, store]
    rfl
  let tree : FileTree := { made := ["/queries", "/fragments"] }
  have made : (inMemory ".").ensure s = ({ inMemory "." with memory := tree }, none) := by
    rw [Workspace.ensure, medium]
    simp only [makeDirectories, records, parts]
    rfl
  refine ⟨s, _, except_ok found, made, rfl, ?_⟩
  rw [records, shelf, Medium.Same]
  exact ⟨by decide, by decide⟩

end Settings

end ApprovedOps
