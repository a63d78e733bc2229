import ApprovedOps.GraphQL.Canonical
import ApprovedOps.Proofs.Document.Whole
import ApprovedOps.Proofs.GraphQL.Consumption

/-! # One operation for each record

The operation that is cut out of a document begins with a keyword or an opening brace, and the walk
over the document opens only one. But it splits only at a keyword right after a closing brace, so
more may follow in the text of the operation that the grammar reads as further definitions. The text
holds exactly one definition if nothing follows the brace that first closes all brackets.
-/

namespace ApprovedOps

open Lexeme

namespace Parts

/-- Is this the first word or brace of an operation, in front of the rest of a text? -/
def IsOpening (word rest : Text) : Prop :=
  word = [.char '{'] ∨
    IsKeyword word ∧ ∀ c, rest.head? = some c → c.isNameContinue = false

/-- Does the text begin as an operation does? -/
def Begins (q : Text) : Prop :=
  ∃ word rest, q = word ++ rest ∧ IsOpening word rest

/-- How many operations the walk has opened. -/
def Walk.operations (w : Walk) : Nat :=
  w.parts.operations + if w.region = .query then 1 else 0

/-- How many operations the walk opens from here on. -/
def openings (t : Text) : Walk → List Lexeme → Nat
  | _, [] => 0
  | w, l :: ls =>
    (if l.kind ≠ .comment ∧ w.opened? l = some .query then 1 else 0) +
      match w.step t l with
      | .ok w => openings t w ls
      | .error _ => 0

/-- Is the operation that the walk has cut out or opened one that begins as operations do? -/
structure Walk.Sound (t : Text) (w : Walk) (k : Nat) : Prop where
  query : w.parts.query = [] ∨ Begins w.parts.query
  opened : w.region = .query → ∃ word rest, t.drop w.start = word ++ rest ∧ IsOpening word rest ∧
    w.start + word.length ≤ k ∧ ∀ c, w.close = some c → w.start + word.length ≤ c

/-! ## Texts of operations -/

/-- What is left of the text behind does not matter for where an operation begins. -/
theorem isOpening_shorter {word rest rest' : Text} (h : IsOpening word rest) (shorter : rest' <+: rest) :
    IsOpening word rest' := by
  obtain brace | ⟨keyword, boundary⟩ := h
  · exact .inl brace
  · refine .inr ⟨keyword, fun c first => boundary c ?_⟩
    obtain ⟨more, rfl⟩ := shorter
    cases rest' with
    | nil => cases first
    | cons d rest' => exact first

theorem opening_blanks {word rest : Text} (h : IsOpening word rest) :
    word ≠ [] ∧ word.dropWhile CodePoint.isBlank = word ∧
      word.reverse.dropWhile CodePoint.isBlank = word.reverse := by
  obtain rfl | ⟨rfl | rfl | rfl, -⟩ := h <;> decide

theorem trimRight_append {word : Text} (rest : Text)
    (ends : word.reverse.dropWhile CodePoint.isBlank = word.reverse) :
    ∃ rest', rest' <+: rest ∧ Text.trimRight (word ++ rest) = word ++ rest' := by
  rw [Text.trimRight, List.reverse_append, List.dropWhile_append]
  split
  · exact ⟨[], List.nil_prefix, by rw [ends, List.reverse_reverse, List.append_nil]⟩
  · refine ⟨(rest.reverse.dropWhile CodePoint.isBlank).reverse, ?_, by simp⟩
    exact List.reverse_suffix.mp (by simpa using List.dropWhile_suffix _)

/-- An operation still begins as one when the blanks around it are gone. -/
theorem begins_trim {word rest : Text} (h : IsOpening word rest) :
    Begins (word ++ rest).trim := by
  obtain ⟨some_, starts, ends⟩ := opening_blanks h
  have left : Text.trimLeft (word ++ rest) = word ++ rest := by
    rw [Text.trimLeft, List.dropWhile_append, starts]
    cases word with
    | nil => exact absurd rfl some_
    | cons c word => simp
  obtain ⟨rest', shorter, trimmed⟩ := trimRight_append rest ends
  exact ⟨word, rest', by rw [Text.trim, left, trimmed], isOpening_shorter h shorter⟩

theorem begins_ne_nil {q : Text} (h : Begins q) : q ≠ [] := by
  obtain ⟨word, rest, rfl, opening⟩ := h
  have some_ := (opening_blanks opening).1
  simp [some_]

/-! ## The walk -/

/-- A name is as long as it can be. -/
theorem name_whole {c : CodePoint} {r : Text} {n : Nat} (h : Piece.of c r = .lexeme .name n) :
    n = (r.takeWhile CodePoint.isNameContinue).length := by
  unfold Piece.of at h
  split at h
  · cases h
  split at h
  · cases h
  split at h
  · split at h
    · cases h
    split at h
    · split at h <;> cases h
    · cases h
  split at h
  · split at h <;> cases h
  split at h
  · cases h
    rfl
  split at h
  · cases h
  split at h
  · split at h <;> cases h
  · cases h

theorem name_boundary {c : CodePoint} {r : Text} {n : Nat} (h : Piece.of c r = .lexeme .name n) :
    ∀ d, (r.drop n).head? = some d → d.isNameContinue = false := by
  intro d first
  have after : (r.takeWhile CodePoint.isNameContinue ++ r.dropWhile CodePoint.isNameContinue).drop n =
      r.dropWhile CodePoint.isNameContinue := by
    rw [name_whole h]
    exact List.drop_left
  rw [List.takeWhile_append_dropWhile] at after
  have stops := List.head?_dropWhile_not CodePoint.isNameContinue r
  rw [← after, first] at stops
  exact stops

theorem ofKeyword?_query {word : Text} (h : Region.ofKeyword? word = some .query) :
    IsKeyword word := by
  unfold Region.ofKeyword? at h
  split at h
  · cases h
  split at h
  · exact .inl ‹_›
  split at h
  · exact .inr (.inl ‹_›)
  split at h
  · exact .inr (.inr ‹_›)
  split at h <;> cases h

/-- What opens an operation is one of its keywords or its brace. -/
theorem opened_query {w : Walk} {l : Lexeme} {rest : Text}
    (whole : l.kind = .name → ∀ c, rest.head? = some c → c.isNameContinue = false)
    (h : w.opened? l = some .query) : IsOpening l.text rest := by
  have keyword (h : Region.openedBy? l = some .query) : IsOpening l.text rest := by
    rw [Region.openedBy?] at h
    split at h
    next name => exact .inr ⟨ofKeyword?_query h, whole name⟩
    next => cases h
  unfold Walk.opened? at h
  split at h
  · cases h
  split at h
  · obtain opens | ⟨-, brace⟩ := Option.or_eq_some_iff.mp h
    · exact keyword opens
    · split at brace
      next mark =>
        simp only [isMark, Bool.and_eq_true, decide_eq_true_eq] at mark
        exact .inl mark.2
      next => cases brace
  split at h
  · exact keyword h
  · cases h

theorem Walk.Sound.later {t : Text} {w : Walk} {k k' : Nat} (sound : w.Sound t k) (h : k ≤ k') :
    w.Sound t k' := by
  refine ⟨sound.query, fun open_ => ?_⟩
  obtain ⟨word, rest, place, opening, before, closed⟩ := sound.opened open_
  exact ⟨word, rest, place, opening, Nat.le_trans before h, closed⟩

/-- What is cut out of the text begins where its region was opened. -/
theorem flush_sound {t : Text} {w : Walk} {k stop : Nat} {p : Parts} (sound : w.Sound t k)
    (h : w.flush t stop = .ok p) :
    (p.query = [] ∨ Begins p.query) ∧ p.operations = w.operations := by
  obtain ⟨parts, region, start, close, depth, afterBrace⟩ := w
  cases region with
  | comment =>
      cases h
      exact ⟨sound.query, rfl⟩
  | vars =>
      cases close with
      | none => cases h
      | some close =>
          cases h
          exact ⟨sound.query, rfl⟩
  | fragment =>
      cases close with
      | none => cases h
      | some close =>
          obtain ⟨name, -, made⟩ := except_bind_ok h
          cases made
          exact ⟨sound.query, rfl⟩
  | query =>
      cases close with
      | none => cases h
      | some close =>
          simp only [Walk.flush] at h
          split at h
          next none_ =>
            cases h
            obtain ⟨word, rest, place, opening, -, closed⟩ := sound.opened rfl
            have value : slice t start close = word ++ rest.take (close - start - word.length) := by
              have within := closed close rfl
              rw [slice, List.drop_take, place, List.take_append,
                List.take_of_length_le (by simp only at within; omega)]
            have begins : Begins (slice t start close).trim := by
              rw [value]
              exact begins_trim (isOpening_shorter opening (List.take_prefix _ _))
            refine ⟨.inr begins, ?_⟩
            simp [Parts.operations, Walk.operations, none_, begins_ne_nil begins]
          next => cases h

theorem count_sound {t : Text} {w : Walk} {l : Lexeme} (sound : w.Sound t l.stop) :
    (w.count l).Sound t l.stop := by
  refine ⟨sound.query, fun open_ => ?_⟩
  obtain ⟨word, rest, place, opening, before, closed⟩ := sound.opened open_
  refine ⟨word, rest, place, opening, before, fun c close => ?_⟩
  by_cases brace : l.isMark '}' = true
  · simp only [Walk.count, brace, if_true, Option.some.injEq] at close
    exact close ▸ before
  · simp only [Walk.count, brace] at close
    exact closed c close

/-- A lexeme opens at most the operation that it begins. -/
theorem step_sound {t rest : Text} {w w' : Walk} {l : Lexeme} {k : Nat} (sound : w.Sound t k)
    (before : k ≤ l.start) (place : t.drop l.start = l.text ++ rest)
    (whole : l.kind = .name → ∀ c, rest.head? = some c → c.isNameContinue = false)
    (h : w.step t l = .ok w') :
    w'.Sound t l.stop ∧ w'.operations =
      w.operations + if l.kind ≠ .comment ∧ w.opened? l = some .query then 1 else 0 := by
  have earlier : k ≤ l.stop := Nat.le_trans before (Nat.le_add_right _ _)
  rw [Walk.step] at h
  split at h
  next comment =>
    cases h
    exact ⟨sound.later earlier, by simp [comment]⟩
  next noComment =>
    obtain ⟨w₁, enter, counted⟩ := except_bind_ok h
    cases counted
    rw [Walk.enter] at enter
    split at enter
    next nothing =>
      cases enter
      exact ⟨count_sound (sound.later earlier), by rw [nothing, if_neg (by simp)]; rfl⟩
    next region opens =>
      obtain ⟨p, flushed, made⟩ := except_bind_ok enter
      cases made
      obtain ⟨query, operations⟩ := flush_sound sound flushed
      refine ⟨count_sound ⟨query, ?_⟩, ?_⟩
      · rintro (rfl : region = .query)
        exact ⟨l.text, rest, place, opened_query whole opens, Nat.le_refl _, fun c closed => by cases closed⟩
      · simp [Walk.operations, Walk.count, operations, noComment, opens]

theorem drop_past {t r : Text} {c : CodePoint} {k : Nat} (place : t.drop k = c :: r) (n : Nat) :
    t.drop (k + n + 1) = r.drop n := by
  rw [Nat.add_assoc, ← List.drop_drop, place, List.drop_succ_cons]

/-- The walk over the rest of a text keeps to the operations that it opens. -/
theorem run_sound {t s : Text} {w w' : Walk} {k : Nat} (place : t.drop k = s)
    (sound : w.Sound t k)
    (h : (scanWith Piece.of k s).1.foldlM (Walk.step t) w = .ok w') :
    (∃ k', w'.Sound t k') ∧
      w'.operations = w.operations + openings t w (scanWith Piece.of k s).1 := by
  fun_induction scanWith Piece.of k s generalizing w with
  | case1 k =>
      cases h
      exact ⟨⟨k, sound⟩, rfl⟩
  | case2 k c r n found ih =>
      exact ih (drop_past place n) (sound.later (by omega)) h
  | case3 k c r kind n found rest failure split ih =>
      have split₁ : (scanWith Piece.of (k + n + 1) (r.drop n)).1 = rest := congrArg Prod.fst split
      rw [split₁] at ih
      rw [List.foldlM_cons] at h
      obtain ⟨w₁, step, run⟩ := except_bind_ok h
      have here : t.drop k = (c :: r.take n) ++ r.drop n := by
        rw [place, List.cons_append, List.take_append_drop]
      obtain ⟨sound₁, operations₁⟩ := step_sound sound (Nat.le_refl k) here
        (by rintro (rfl : kind = .name); exact name_boundary found) step
      have stop : stop ⟨kind, c :: r.take n, k⟩ ≤ k + n + 1 := by
        simp only [stop, List.length_cons, List.length_take]
        omega
      obtain ⟨sound', operations'⟩ := ih (drop_past place n) (sound₁.later stop) run
      refine ⟨sound', ?_⟩
      rw [operations', operations₁, openings, step, Nat.add_assoc]
  | case4 k c r what found =>
      cases h
      exact ⟨⟨k, sound⟩, rfl⟩

/-- The operation of a document begins as one, and it is the only one that the walk opens. -/
theorem ofText_sound {t : Text} {p : Parts} (h : ofText t = .ok p) :
    (p.query = [] ∨ Begins p.query) ∧ openings t {} (scan t).1 = p.operations := by
  obtain ⟨w, run, last⟩ := except_bind_ok h
  have start : Walk.Sound t {} 0 := ⟨.inl rfl, nofun⟩
  obtain ⟨⟨k, sound⟩, operations⟩ := run_sound (s := t) rfl start run
  split at last
  next => cases last
  next =>
      obtain ⟨query, same⟩ := flush_sound sound last
      refine ⟨query, ?_⟩
      rw [same, operations]
      exact (Nat.zero_add _).symm

end Parts

/-! ## The grammar -/

namespace GraphQL

open Parts (IsOpening Begins)

/-- Both ways of reading agree on what an operation begins with. -/
theorem scan_opening {word rest : Text} (h : IsOpening word rest) :
    ∃ first more, Lexed.scan (word ++ rest) = .token first :: more ∧
      beginsOperation first = true := by
  obtain rfl | ⟨keyword, boundary⟩ := h
  · refine ⟨⟨Reader.mark '{', 0, []⟩, Lexed.scanFrom 1 rest, ?_, rfl⟩
    rw [Lexed.scan, List.singleton_append, Lexed.scanFrom, if_neg (by decide), if_neg (by decide)]
    rfl
  · have reads {c : CodePoint} {cs : Text} (start : c.isNameStart = true)
        (plain : Lexed.isIgnored c = false ∧ c ≠ .char '#' ∧ c ≠ .char '"' ∧ Lexed.isMark c = false ∧
          c.isAsciiDigit = false ∧ c ≠ .char '-')
        (continue_ : ∀ d ∈ cs, d.isNameContinue = true) :
        Lexed.scan (c :: cs ++ rest) =
          .token ⟨.name, 0, c :: cs⟩ :: Lexed.scanFrom (0 + cs.length + 1) rest := by
      obtain ⟨noGap, noComment, noString, noMark, noDigit, noSign⟩ := plain
      have run := takeWhile_bounded continue_ boundary
      have token : Lexed.tokenAt c (cs ++ rest) = .ok (.name, c :: cs, cs.length) := by
        simp [Lexed.tokenAt, noString, noMark, noDigit, noSign, start, run]
      rw [Lexed.scan, List.cons_append, Lexed.scanFrom, if_neg (by simp [noGap]), if_neg noComment,
        token]
      simp
    obtain rfl | rfl | rfl := keyword
    · exact ⟨_, _, reads (by decide) (by decide) (by decide), rfl⟩
    · exact ⟨_, _, reads (by decide) (by decide) (by decide), rfl⟩
    · exact ⟨_, _, reads (by decide) (by decide) (by decide), rfl⟩

/-- A text that begins as an operation is read as one first. -/
theorem ofText_operation {q : Text} {d : Document} (begins : Begins q) (h : Document.ofText q = .ok d) :
    ∃ s s₁ o rest, Stream.lexed s = Lexed.scan q ∧ Reader.operation s = .ok (o, s₁) ∧
      d = .operation o :: rest ∧
      (rest = [] ↔ ∃ last, last.kind = .eof ∧ afterBlock 0 (Lexed.scan q) = some [.token last]) := by
  obtain ⟨word, rest, rfl, opening⟩ := begins
  obtain ⟨first, more, scanned, starts⟩ := scan_opening opening
  obtain ⟨s, started, h⟩ := except_bind_ok h
  obtain ⟨⟨d', s'⟩, read, made⟩ := except_bind_ok h
  cases made
  have lexed := start_lexed started
  have complete : Lexed.Complete s.lexed := lexed ▸ scanFrom_complete 0 _
  have current : s.current = first := by
    rw [scanned] at lexed
    exact Lexed.token.inj (List.cons.inj lexed).1
  obtain ⟨o, rest, s₁, whole, operation, alone⟩ := document_operation complete (current ▸ starts) read
  exact ⟨s, s₁, o, rest, lexed, operation, whole, lexed ▸ alone⟩

/-- The first definition of a text that begins as an operation is an operation. -/
theorem ofText_begins {q : Text} {d : Document} (begins : Begins q) (h : Document.ofText q = .ok d) :
    ∃ o rest, d = .operation o :: rest ∧ (∀ n, o.name = some n → n.isName = true) ∧
      (rest = [] ↔ ∃ last, last.kind = .eof ∧ afterBlock 0 (Lexed.scan q) = some [.token last]) := by
  obtain ⟨s, s₁, o, rest, lexed, operation, whole, alone⟩ := ofText_operation begins h
  have complete : Lexed.Complete s.lexed := lexed ▸ scanFrom_complete 0 _
  have named : Lexed.Named s.lexed := lexed ▸ scanFrom_named 0 _
  exact ⟨o, rest, whole, fun n => operation_name complete named operation, alone⟩

end GraphQL

theorem Canonical.ofText_ne_nil {q : Text} {c : Canonical} (accepted : ofText q = .ok c) : q ≠ [] := by
  have refused : (ofText []).toOption = none := by decide +kernel
  rintro rfl
  rw [accepted] at refused
  cases refused

namespace Parts

open GraphQL (afterBlock)

/-- The first definition of an accepted operation's text is the operation whose name is taken. -/
theorem canonical_first {t : Text} {p : Parts} {c : Canonical} (cut : ofText t = .ok p)
    (accepted : Canonical.ofText p.query = .ok c) :
    ∃ o rest, GraphQL.Document.ofText p.query = .ok (.operation o :: rest) ∧
      o.name = some c.name ∧ c.name.isName = true ∧
      (rest = [] ↔ ∃ last, last.kind = .eof ∧
        afterBlock 0 (GraphQL.Lexed.scan p.query) = some [.token last]) := by
  have begins : Begins p.query := (ofText_sound cut).1.resolve_left (Canonical.ofText_ne_nil accepted)
  rw [Canonical.ofText] at accepted
  split at accepted
  next => cases accepted
  next d read =>
    obtain ⟨o, rest, rfl, names, alone⟩ := GraphQL.ofText_begins begins read
    have first : (Canonical.operations (.operation o :: rest)).head? = some o := rfl
    simp only [first] at accepted
    split at accepted
    next => cases accepted
    next name named =>
      cases accepted
      exact ⟨o, rest, read, named, names name named, alone⟩

/-- A document in which the walk opens a second operation is refused. In one that is cut into parts
    and has its operation accepted, the first definition of the operation's text is the operation
    whose name is taken; it is the only one if the text ends with the brace that first closes all
    brackets. -/
theorem one_operation {t : Text} {p : Parts} (cut : ofText t = .ok p) :
    openings t {} (scan t).1 ≤ 1 ∧
      ∀ c, Canonical.ofText p.query = .ok c →
        ∃ o rest, GraphQL.Document.ofText p.query = .ok (.operation o :: rest) ∧
          o.name = some c.name ∧
          (rest = [] ↔ ∃ last, last.kind = .eof ∧
            afterBlock 0 (GraphQL.Lexed.scan p.query) = some [.token last]) := by
  constructor
  · rw [(ofText_sound cut).2, operations]
    split <;> decide
  · intro c accepted
    obtain ⟨o, rest, read, named, -, alone⟩ := canonical_first cut accepted
    exact ⟨o, rest, read, named, alone⟩

theorem one_operation_of_query :
    ∃ o, GraphQL.Document.ofText "query A \x7b a \x7d" = .ok [.operation o] ∧ o.name = some "A" := by
  have cut : ofText "# first\nquery A \x7b a \x7d fragment F on T \x7b b \x7d" = .ok {
      comment := "# first"
      query := "query A \x7b a \x7d"
      fragments := [⟨"F", "fragment F on T \x7b b \x7d"⟩] } :=
    except_ok (by decide +kernel)
  have accepted : Canonical.ofText "query A \x7b a \x7d" = .ok ⟨"query A \x7b\n  a\n\x7d", "A"⟩ :=
    except_ok (by decide +kernel)
  obtain ⟨o, rest, read, name, alone⟩ := (one_operation cut).2 _ accepted
  have last : afterBlock 0 (GraphQL.Lexed.scan "query A \x7b a \x7d") = some [.token ⟨.eof, 13, []⟩] := by
    decide +kernel
  obtain rfl : rest = [] := alone.mpr ⟨_, rfl, last⟩
  exact ⟨o, read, name⟩

/-- A comma hides the next keyword from the walk, but not from the grammar. -/
theorem two_operations_after_comma :
    ∃ p c d, ofText "query A \x7b a \x7d, query B \x7b b \x7d" = .ok p ∧ Canonical.ofText p.query = .ok c ∧
      GraphQL.Document.ofText p.query = .ok d ∧
      (Canonical.operations d).map (·.name) = [some (Text.ofString "A"), some (Text.ofString "B")] := by
  have cut : ofText "query A \x7b a \x7d, query B \x7b b \x7d" = .ok { query := "query A \x7b a \x7d, query B \x7b b \x7d" } :=
    except_ok (by decide +kernel)
  have accepted : Canonical.ofText "query A \x7b a \x7d, query B \x7b b \x7d" =
      .ok ⟨"query A \x7b\n  a\n\x7d\n\nquery B \x7b\n  b\n\x7d", "A"⟩ := except_ok (by decide +kernel)
  have names : (GraphQL.Document.ofText "query A \x7b a \x7d, query B \x7b b \x7d").toOption.map
      (fun d => (Canonical.operations d).map (·.name)) =
        some [some (Text.ofString "A"), some (Text.ofString "B")] := by
    decide +kernel
  obtain ⟨d, read, both⟩ := Option.map_eq_some_iff.mp names
  exact ⟨_, _, d, cut, accepted, except_ok read, both⟩

end Parts

end ApprovedOps
