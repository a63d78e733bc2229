import ApprovedOps.Proofs.Files.Path
import ApprovedOps.Proofs.Files.Placed
import ApprovedOps.Proofs.Project.Template
import ApprovedOps.Proofs.Text.Utf8

/-! # New projects

The file that is written for a new project is the one that its settings are read from. They are the
defaults, with the name that was given, if nothing in the name has to be escaped.
-/

namespace ApprovedOps

namespace Settings

open Toml

/-- The settings of a project of which only the name is set. -/
def initial (root : Path) (n : Text) : Settings where
  root
  name := .string n
  store := root.below (.ofText defaultStore)
  protocol := defaultProtocol
  readOnly := false
  queueSize := 1
  level := "INFO"

variable {d d' : Disk} {root path : Path} {name : Option Text} {n : Text}

theorem init_ok (h : init d root name = (d', .ok path)) :
    ∃ bytes, Utf8.encode? (template ((nonEmpty name).getD root.name)) = some bytes ∧
      d.write (root.below fileName).toText bytes = .ok d' := by
  dsimp only [init] at h
  split at h
  · cases h
  · split at h
    · cases h
    next written =>
      obtain ⟨rfl, made⟩ := Prod.mk.inj h
      cases encoded : Utf8.encode? (template ((nonEmpty name).getD root.name)) with
      | none =>
          rw [encoded] at made
          cases made
      | some bytes =>
          rw [encoded] at written
          exact ⟨bytes, rfl, written⟩

/-- A directory with a file of settings is the nearest one. -/
theorem findRoot_here (there : d.exists? (root.below fileName).toText = true) :
    findRoot d root = root := by
  have first : root.withParents.head? = some root := by
    simp [Path.withParents, List.range_succ_eq_map]
  obtain ⟨above, same⟩ := List.head?_eq_some_iff.mp first
  rw [findRoot, same, List.find?_cons, there]
  rfl

theorem withLineFeeds_template (n : Text) :
    withLineFeeds (template n) = template (withLineFeeds n) := by
  have plain : withLineFeeds afterName = afterName := by
    have same := @withLineFeeds_plain afterName (by decide +kernel) []
    rwa [List.append_nil, withLineFeeds, List.append_nil] at same
  have first : CodePoint.char '\r' ∉ Text.ofString "[allowlist]\n" := by decide
  have second : CodePoint.char '\r' ∉ Text.ofString "name = " ++ [.char '"'] := by decide
  rw [template_eq, template_eq, withLineFeeds_plain first, List.append_cons,
    withLineFeeds_plain second, withLineFeeds_append (by simp [afterName]), plain, ← List.append_cons]

/-- The settings of a new project are those of the text that was written, with line feeds alone. -/
theorem load_written {t : Text} (h : init d (.ofText t) name = (d', .ok path)) :
    let root := Path.ofText t
    let written := template (withLineFeeds ((nonEmpty name).getD root.name))
    load {} d' (some root.toText) =
      match readLines written with
      | .ok es => ofFile {} root es
      | .error e => .error (.toml written e) := by
  intro root written
  obtain ⟨bytes, encoded, wrote⟩ := init_ok h
  obtain ⟨there, read⟩ := Disk.write_read wrote
  have given : nonEmpty (some root.toText) = some root.toText := by
    simp [nonEmpty, Option.filter, root, Path.toText_ne_nil]
  have here : findRoot d' ((nonEmpty (some root.toText)).elim ⟨[.char '/'], d'.working⟩ Path.ofText) =
      root := by
    rw [given, Option.elim_some, Path.ofText_toText]
    exact findRoot_here there
  simp only [load, here]
  rw [readFile, if_pos there, read]
  simp only [Utf8.decode_encode encoded, withLineFeeds_template]
  change (match readLines written with
    | .ok entries => _
    | .error e => _) >>= _ = _
  cases readLines written <;> rfl

theorem ofFile_onlyName (root : Path) (n : Text) :
    ofFile {} root (onlyName n) = .ok (initial root n) := by
  rfl

theorem ofFile_name {es : Entries} {s : Settings} (named : es.At (.string n) nameKey)
    (h : ofFile {} root es = .ok s) : s.name = .string n := by
  obtain ⟨part, found⟩ : ∃ part, Entries.get? "allowlist" es = some (.mapping part) ∧
      Entries.get? "name" part = some (.string n) := by
    cases named with
    | inside found rest =>
        cases rest with
        | here found' => exact ⟨_, found, found'⟩
        | inside _ nothing => cases nothing
  obtain ⟨section_, name_⟩ := found
  simp only [ofFile, section_, get?, name_, nonEmpty, Option.filter_none] at h
  obtain ⟨_, -, h⟩ := except_bind_ok h
  obtain ⟨given, -, h⟩ := except_bind_ok h
  obtain ⟨_, -, h⟩ := except_bind_ok h
  obtain ⟨store, -, h⟩ := except_bind_ok h
  obtain ⟨_, -, h⟩ := except_bind_ok h
  obtain ⟨_, -, h⟩ := except_bind_ok h
  obtain ⟨size, -, h⟩ := except_bind_ok h
  split at h
  next => cases h
  next =>
    obtain ⟨read, same, h⟩ := except_bind_ok h
    obtain ⟨_, -, h⟩ := except_bind_ok h
    obtain ⟨level, -, h⟩ := except_bind_ok h
    cases same
    cases h
    rfl

/-- A new project is loaded with the name that was given and the defaults for all else, if nothing in
    the name has to be escaped. If something has to be, it has another name or is not loaded at all. -/
theorem load_init {d d' : Disk} {t : Text} {name : Option Text} {path : Path}
    (h : init d (.ofText t) name = (d', .ok path)) :
    let root := Path.ofText t
    let n := (nonEmpty name).getD root.name
    ((∀ p ∈ n, isOrdinary p = true) → load {} d' (some root.toText) = .ok (initial root n)) ∧
      ∀ s, load {} d' (some root.toText) = .ok s → s.name = .string n →
        ∀ p ∈ n, isOrdinary p = true := by
  intro root n
  have loaded : load {} d' (some root.toText) = match readLines (template (withLineFeeds n)) with
      | .ok es => ofFile {} root es
      | .error e => .error (.toml (template (withLineFeeds n)) e) := load_written h
  constructor
  · intro ordinary
    have noReturn : CodePoint.char '\r' ∉ n := fun among => absurd (ordinary _ among) (by decide)
    have same := withLineFeeds_plain noReturn []
    rw [List.append_nil, withLineFeeds, List.append_nil] at same
    rw [loaded, same, read_template ordinary]
    exact ofFile_onlyName root n
  · intro s settings named
    rw [loaded] at settings
    split at settings
    next es read =>
      obtain ⟨t, there, short, equal⟩ := template_name read
      obtain rfl : t = n := Value.string.inj ((ofFile_name there settings).symm.trans named)
      -- Nothing is lost on the way, so the line feeds are as they were.
      obtain ⟨short', same⟩ := withLineFeeds_length n
      rw [same (Nat.le_antisymm short' short)] at equal
      exact (equal rfl).2
    next => cases settings

/-- A name of letters outside ASCII and brackets, in a directory of any other name. -/
theorem load_init_of_name :
    ∃ d', init { directories := [["p"]] } (.ofText "p") (some "gäte [way] = 1") =
        (d', .ok ⟨[], ["p", "allowlist.toml"]⟩) ∧
      load {} d' (some (Path.ofText "p").toText) =
        .ok (initial (.ofText "p") "gäte [way] = 1") := by
  have made : init { directories := [["p"]] } (.ofText "p") (some "gäte [way] = 1") =
      ((init { directories := [["p"]] } (.ofText "p") (some "gäte [way] = 1")).1,
        .ok ⟨[], ["p", "allowlist.toml"]⟩) := Prod.ext rfl (except_ok (by decide +kernel))
  exact ⟨_, made, (load_init made).1 (by decide +kernel)⟩

/-- A quote in the name ends it, and what follows is no TOML. -/
theorem quote_not_loaded :
    ∃ d', init { directories := [["p"]] } (.ofText "p") (some "a\"b") =
        (d', .ok ⟨[], ["p", "allowlist.toml"]⟩) ∧
      (load {} d' (some (Path.ofText "p").toText)).toBool = false := by
  have made : init { directories := [["p"]] } (.ofText "p") (some "a\"b") =
      ((init { directories := [["p"]] } (.ofText "p") (some "a\"b")).1,
        .ok ⟨[], ["p", "allowlist.toml"]⟩) := Prod.ext rfl (except_ok (by decide +kernel))
  exact ⟨_, made, by decide +kernel⟩

end Settings

end ApprovedOps
