import ApprovedOps.Proofs.Json.Exact
import ApprovedOps.Proofs.Variables.Reflected
import ApprovedOps.Proofs.Variables.Tokens

/-! # JSON is unambiguous

A text of JSON is the text of one tree, up to the two trees of the word `null`. Every token ends where
no other one that begins at the same place can end: words and numbers in front of what cannot stand
in them, strings with their first quote that is not escaped.
-/

namespace ApprovedOps

namespace Variables

open Json Json.Reader

/-! ## Pieces of a text -/

theorem gap_unique {g g' a a' : Text} (h : Gap Manner.plain g) (h' : Gap Manner.plain g')
    (front : ∃ c t, a = c :: t ∧ isBlank c = false)
    (front' : ∃ c t, a' = c :: t ∧ isBlank c = false) (text : g ++ a = g' ++ a') :
    g = g' ∧ a = a' := by
  obtain ⟨c, t, rfl, solid⟩ := front
  obtain ⟨c', t', rfl, solid'⟩ := front'
  exact front_unique text (gap_blanks rfl h) (gap_blanks rfl h') solid solid'

theorem opens_front {s : Text} (h : Opens s) (r : Text) :
    ∃ c t, s ++ r = c :: t ∧ isBlank c = false :=
  ahead_front (ahead_opens h r)

theorem closes_joins {r : Text} (h : Closes r) : Joins r := by
  obtain ⟨c, t, rfl, bracket⟩ := h
  exact close_joins bracket.symm t

theorem joins_mark {c : Char} (mark : c = ',' ∨ c = ':') (r : Text) : Joins (.char c :: r) := by
  rintro d ⟨⟩
  obtain rfl | rfl := mark <;> rfl

/-- What stands in words and numbers is taken up to what does not. -/
theorem word_unique {w w' r r' : Text} (all : ∀ c ∈ w, inWord c = true)
    (all' : ∀ c ∈ w', inWord c = true) (ends : Joins r) (ends' : Joins r')
    (text : w ++ r = w' ++ r') : w = w' := by
  have run {w r : Text} (all : ∀ c ∈ w, inWord c = true) (ends : Joins r) :
      (w ++ r).takeWhile inWord = w := by
    rw [List.takeWhile_append_of_pos all]
    cases r with
    | nil => simp
    | cons c r =>
        have joined := ends c rfl
        have other : inWord c = false := by
          simp only [joins, isBlank, Bool.or_eq_true, decide_eq_true_eq] at joined
          obtain ((((((rfl | rfl) | rfl) | rfl) | rfl) | rfl) | rfl) | rfl := joined <;> rfl
        rw [List.takeWhile_cons_of_neg (by simp [other]), List.append_nil]
  rw [← run all ends, text, run all' ends']

theorem between_unique {body body' r r' : Text} (h : StringBody body) (h' : StringBody body')
    (text : between body ++ r = between body' ++ r') : body = body' ∧ r = r' := by
  have inner : body ++ .char '"' :: r = body' ++ .char '"' :: r' := by
    simpa [between] using text
  have size : body.length = body'.length := by
    have tail := stringTail_body h r
    rw [inner, stringTail_body h' r'] at tail
    simpa using tail.symm
  obtain ⟨same, rest⟩ := List.append_inj inner size
  exact ⟨same, (List.cons.inj rest).2⟩

/-! ## Words and numbers -/

/-- Do two trees mean the same, whatever their numbers may mean? -/
def Alike (v v' : Tree) : Prop :=
  ∀ N x, v.MeansBy N x ↔ v'.MeansBy N x

theorem alike_refl (v : Tree) : Alike v v :=
  fun _ _ => Iff.rfl

theorem alike_null : Alike .null (.word (Text.ofString "null") .null) :=
  fun _ _ => ⟨fun | .null => .word, fun | .word => .null⟩

/-- What a text of the tree begins with, unless it is a word or a number. -/
def opening? : Tree → Option Char
  | .string _ => some '"'
  | .array _ => some '['
  | .object _ => some '\x7b'
  | _ => none

theorem laid_opening {v : Tree} {s : Text} (h : Laid Manner.plain v s) {c : Char}
    (first : opening? v = some c) : inWord (.char c) = false ∧ ∃ t, s = .char c :: t := by
  cases h <;> cases first <;> exact ⟨rfl, _, rfl⟩

/-- The text of a tree that is a word or a number is the word or number. -/
theorem laid_word {v : Tree} {s : Text} (h : Laid Manner.plain v s) (none_ : opening? v = none) :
    (∀ c ∈ s, inWord c = true) ∧
      ((IsNumber s ∧ v = .number s) ∨ ∃ x, (s, x) ∈ words ∧ Alike v (.word s x)) := by
  have inside : ∀ w ∈ words, ∀ c ∈ w.1, inWord c = true := by decide
  cases h with
  | null =>
      have among : (Text.ofString "null", Json.null) ∈ words := by simp [words]
      exact ⟨inside _ among, .inr ⟨_, among, alike_null⟩⟩
  | placeholder comments => cases comments
  | word among => exact ⟨inside _ among, .inr ⟨_, among, alike_refl _⟩⟩
  | number written =>
      exact ⟨number_chars written (fun _ digit => inWord_digit digit) (by decide),
        .inl ⟨written, rfl⟩⟩
  | string => cases none_
  | noItem => cases none_
  | array => cases none_
  | noMember => cases none_
  | object => cases none_

theorem word_notNumber {w : Text} {x : Json} (among : (w, x) ∈ words) : ¬IsNumber w := by
  intro written
  have heads : ∀ w ∈ words, w.1.head?.any CodePoint.isAsciiDigit = false := by decide
  have seconds : ∀ w ∈ words, (w.1.drop 1).head?.any CodePoint.isAsciiDigit = false := by decide
  have head := heads _ among
  have second := seconds _ among
  obtain ⟨d, r, digit, text⟩ := numeric_token written []
  have digit_ : CodePoint.isAsciiDigit (.char d) = true := digit
  rw [List.append_nil] at text
  obtain rfl | rfl := text
  · simp [digit_] at head
  · simp [digit_] at second

theorem words_unique {w : Text} {x x' : Json} (h : (w, x) ∈ words) (h' : (w, x') ∈ words) :
    x = x' := by
  have names : (words.map Prod.fst).Nodup := by decide
  exact congrArg Prod.snd (List.inj_on_of_nodup_map names h h' rfl)

/-- The trees of a word or a number are alike. -/
theorem word_alike {v v' : Tree} {s : Text} (h : Laid Manner.plain v s) (h' : Laid Manner.plain v' s)
    (none_ : opening? v = none) (none' : opening? v' = none) : Alike v v' := by
  obtain ⟨-, ⟨written, rfl⟩ | ⟨x, among, alike⟩⟩ := laid_word h none_
  · obtain ⟨-, ⟨-, rfl⟩ | ⟨x', among', -⟩⟩ := laid_word h' none'
    · exact alike_refl _
    · exact absurd written (word_notNumber among')
  · obtain ⟨-, ⟨written', -⟩ | ⟨x', among', alike'⟩⟩ := laid_word h' none'
    · exact absurd written' (word_notNumber among)
    · obtain rfl := words_unique among among'
      exact fun N x => (alike N x).trans (alike' N x).symm

/-! ## Trees -/

/-- Is what an element begins with cut off the text in one way, and are its two trees alike? -/
def CutBy {α : Type} (each : α → Text → Prop) (like : α → α → Prop) (x : α) : Prop :=
  ∀ y s s' r r', each x s → each y s' → Joins r → Joins r' → s ++ r = s' ++ r' → s = s' ∧ like x y

section

variable {α : Type} {each : α → Text → Prop} {like : α → α → Prop}

theorem first_unique {x y : α} {g g' s s' a a' : Text} (opened : ∀ x s, each x s → Opens s)
    (cut : CutBy each like x) (gap : Gap Manner.plain g) (gap' : Gap Manner.plain g')
    (laid : each x s) (laid' : each y s') (joins_ : Joins a) (joins' : Joins a')
    (text : g ++ (s ++ a) = g' ++ (s' ++ a')) : g = g' ∧ s = s' ∧ like x y ∧ a = a' := by
  obtain ⟨same, text'⟩ := gap_unique gap gap' (opens_front (opened x s laid) _)
    (opens_front (opened y s' laid') _) text
  obtain ⟨rfl, like_⟩ := cut y s s' a a' laid laid' joins_ joins' text'
  exact ⟨same, rfl, like_, List.append_cancel_left text'⟩

theorem comma_front (r : Text) : ∃ c t, .char ',' :: r = c :: t ∧ isBlank c = false :=
  ⟨_, r, rfl, rfl⟩

theorem comma_not_closes {r : Text} (h : Closes (.char ',' :: r)) : False := by
  obtain ⟨c, t, text, rfl | rfl⟩ := h <;> cases text

/-- The elements between two brackets are cut apart in one way. -/
theorem series_unique {xs : List α} {s r : Text} (opened : ∀ x s, each x s → Opens s)
    (cut : ∀ x ∈ xs, CutBy each like x) (h : Series Manner.plain each xs s) :
    ∀ {ys s' r'}, Series Manner.plain each ys s' → Closes r → Closes r' → s ++ r = s' ++ r' →
      s = s' ∧ List.Forall₂ like xs ys := by
  -- After each element comes a comma in both texts, or the closing bracket in both.
  induction h with
  | @last x g s t gap laid tail =>
      intro ys s' r' h' closes closes' text
      have tail := tail_plain tail
      have ends := gap_joins tail (closes_joins closes)
      cases h' with
      | @last y g' u t' gap' laid' tail' =>
          have tail' := tail_plain tail'
          simp only [List.append_assoc] at text
          obtain ⟨rfl, rfl, like_, rest⟩ := first_unique opened (cut x List.mem_cons_self) gap gap'
            laid laid' ends (gap_joins tail' (closes_joins closes')) text
          obtain ⟨rfl, -⟩ := gap_unique tail tail' (closes_front closes) (closes_front closes') rest
          exact ⟨rfl, .cons like_ .nil⟩
      | @next y ys g' u b t' gap' laid' between' rest' =>
          simp only [List.append_assoc, List.cons_append] at text
          obtain ⟨rfl, rfl, like_, rest⟩ := first_unique opened (cut x List.mem_cons_self) gap gap'
            laid laid' ends (gap_joins between' (joins_mark (.inl rfl) _)) text
          obtain ⟨-, rfl⟩ := gap_unique tail between' (closes_front closes) (comma_front _) rest
          exact (comma_not_closes closes).elim
  | @next x xs g s b t gap laid between_ rest ih =>
      intro ys s' r' h' closes closes' text
      have ends (r : Text) := gap_joins between_ (joins_mark (.inl rfl) r)
      cases h' with
      | @last y g' u t' gap' laid' tail' =>
          have tail' := tail_plain tail'
          simp only [List.append_assoc, List.cons_append] at text
          obtain ⟨rfl, rfl, like_, rest'⟩ := first_unique opened (cut x List.mem_cons_self) gap gap'
            laid laid' (ends _) (gap_joins tail' (closes_joins closes')) text
          obtain ⟨-, rfl⟩ := gap_unique between_ tail' (comma_front _) (closes_front closes') rest'
          exact (comma_not_closes closes').elim
      | @next y ys g' u b' t' gap' laid' between' rest' =>
          simp only [List.append_assoc, List.cons_append] at text
          obtain ⟨rfl, rfl, like_, later⟩ := first_unique opened (cut x List.mem_cons_self) gap gap'
            laid laid' (ends _) (gap_joins between' (joins_mark (.inl rfl) _)) text
          obtain ⟨rfl, others⟩ := gap_unique between_ between' (comma_front _) (comma_front _) later
          obtain ⟨rfl, likes⟩ := ih (fun x among => cut x (List.mem_cons_of_mem _ among)) rest' closes
            closes' (List.cons.inj others).2
          exact ⟨rfl, .cons like_ likes⟩

/-- Between two brackets there are blanks or elements. -/
theorem series_not_gap {xs : List α} {g s r r' : Text} (opened : ∀ x s, each x s → Opens s)
    (gap : Gap Manner.plain g) (series : Series Manner.plain each xs s) (closes : Closes r)
    (text : g ++ r = s ++ r') : False := by
  obtain ⟨x, s', t, laid, first⟩ := series_first opened series
  obtain ⟨c, u, rfl, opens_⟩ := opened x s' laid
  obtain ⟨d, v, rfl, bracket⟩ := closes
  have solid : ∀ c, (CodePoint.char d :: v).head? = some c → isBlank c = false := by
    rintro c ⟨⟩
    obtain rfl | rfl := bracket <;> rfl
  have left := first r'
  rw [← text, gap_solid gap solid] at left
  obtain ⟨rfl, -⟩ := List.cons.inj left
  obtain rfl | rfl := bracket <;> cases opens_

/-- Is the text what stands between two brackets? -/
def Inside (each : α → Text → Prop) (xs : List α) (s : Text) : Prop :=
  (xs = [] ∧ Gap Manner.plain s) ∨ Series Manner.plain each xs s

theorem inside_unique {xs ys : List α} {s s' r r' : Text} (opened : ∀ x s, each x s → Opens s)
    (cut : ∀ x ∈ xs, CutBy each like x) (h : Inside each xs s) (h' : Inside each ys s')
    (closes : Closes r) (closes' : Closes r') (text : s ++ r = s' ++ r') :
    s = s' ∧ List.Forall₂ like xs ys := by
  obtain ⟨rfl, gap⟩ | series := h
  · obtain ⟨rfl, gap'⟩ | series' := h'
    · exact ⟨(gap_unique gap gap' (closes_front closes) (closes_front closes') text).1, .nil⟩
    · exact (series_not_gap opened gap series' closes text).elim
  · obtain ⟨rfl, gap'⟩ | series' := h'
    · exact (series_not_gap opened gap' series closes' text.symm).elim
    · exact series_unique opened cut series series' closes closes' text

end

/-- Are two members alike? -/
def AlikeMembers (m m' : Text × Tree) : Prop :=
  m.1 = m'.1 ∧ Alike m.2 m'.2

theorem named_cut {name : Text} {v : Tree} (value : CutBy (Laid Manner.plain) Alike v) :
    CutBy (Named Manner.plain (Laid Manner.plain)) AlikeMembers (name, v) := by
  rintro ⟨name', v'⟩ _ _ r r' ⟨body, gap, between_, laid⟩ ⟨body', gap', between', laid'⟩ ends ends'
    text
  have colon (r : Text) : ∃ c t, .char ':' :: r = c :: t ∧ isBlank c = false := ⟨_, r, rfl, rfl⟩
  simp only [List.append_assoc, List.cons_append] at text
  obtain ⟨rfl, afterName⟩ := between_unique body body' text
  obtain ⟨rfl, fromColon⟩ := gap_unique gap gap' (colon _) (colon _) afterName
  obtain ⟨rfl, afterColon⟩ := gap_unique between_ between' (opens_front (laid_opens laid) r)
    (opens_front (laid_opens laid') r') (List.cons.inj fromColon).2
  obtain ⟨rfl, alike⟩ := value _ _ _ _ _ laid laid' ends ends' afterColon
  exact ⟨rfl, rfl, alike⟩

theorem items_alike {items items' : List Tree} (h : List.Forall₂ Alike items items') :
    Alike (.array items) (.array items') := by
  have each (N : Text → ℚ → Prop) (xs : List Exact) :
      List.Forall₂ (Tree.MeansBy N) items xs ↔ List.Forall₂ (Tree.MeansBy N) items' xs := by
    induction h generalizing xs with
    | nil => exact Iff.rfl
    | cons first rest ih => simp only [List.forall₂_cons_left_iff, first N, ih]
  exact fun N x => ⟨fun | .array means => .array ((each N _).mp means),
    fun | .array means => .array ((each N _).mpr means)⟩

theorem members_alike {members members' : List (Text × Tree)}
    (h : List.Forall₂ AlikeMembers members members') : Alike (.object members) (.object members') := by
  have each (N : Text → ℚ → Prop) (xs : List (Text × Exact)) :
      List.Forall₂ (Tree.Member (Tree.MeansBy N)) members xs ↔
        List.Forall₂ (Tree.Member (Tree.MeansBy N)) members' xs := by
    induction h generalizing xs with
    | nil => exact Iff.rfl
    | @cons m m' ms ms' first rest ih =>
        obtain ⟨name, v⟩ := m
        obtain ⟨name', v'⟩ := m'
        obtain ⟨rfl, alike⟩ := first
        have field (f : Text × Exact) : Tree.Member (Tree.MeansBy N) (name, v) f ↔
            Tree.Member (Tree.MeansBy N) (name, v') f := by
          obtain ⟨t, x⟩ := f
          rw [Tree.member_iff, Tree.member_iff]
          exact and_congr_right fun _ => alike N x
        simp only [List.forall₂_cons_left_iff, field, ih]
  exact fun N x => ⟨fun | .object means => .object ((each N _).mp means),
    fun | .object means => .object ((each N _).mpr means)⟩

/-- Trees of one text begin alike. -/
theorem opening_same {v v' : Tree} {s s' r r' : Text} (h : Laid Manner.plain v s)
    (h' : Laid Manner.plain v' s') (text : s ++ r = s' ++ r') : opening? v = opening? v' := by
  have apart {v v' : Tree} {s s' r r' : Text} {c : Char} (h : Laid Manner.plain v s)
      (h' : Laid Manner.plain v' s') (text : s ++ r = s' ++ r') (first : opening? v = some c)
      (none_ : opening? v' = none) : False := by
    obtain ⟨other, t, rfl⟩ := laid_opening h first
    obtain ⟨d, u, rfl, -⟩ := laid_opens h'
    obtain ⟨rfl, -⟩ := List.cons.inj text
    rw [(laid_word h' none_).1 _ List.mem_cons_self] at other
    cases other
  cases first : opening? v with
  | none =>
      cases first' : opening? v' with
      | none => rfl
      | some c' => exact (apart h' h text.symm first' first).elim
  | some c =>
      cases first' : opening? v' with
      | none => exact (apart h h' text first first').elim
      | some c' =>
          obtain ⟨-, t, rfl⟩ := laid_opening h first
          obtain ⟨-, t', rfl⟩ := laid_opening h' first'
          exact congrArg some (CodePoint.char.inj (List.cons.inj text).1)

theorem word_cut {v : Tree} (none_ : opening? v = none) : CutBy (Laid Manner.plain) Alike v := by
  intro v' s s' r r' h h' ends ends' text
  have none' := (opening_same h h' text).symm.trans none_
  obtain rfl := word_unique (laid_word h none_).1 (laid_word h' none').1 ends ends' text
  exact ⟨rfl, word_alike h h' none_ none'⟩

theorem laid_array {items : List Tree} {s : Text} (h : Laid Manner.plain (.array items) s) :
    ∃ inner, s = .char '[' :: (inner ++ [.char ']']) ∧ Inside (Laid Manner.plain) items inner := by
  cases h with
  | noItem gap => exact ⟨_, rfl, .inl ⟨rfl, gap⟩⟩
  | array series => exact ⟨_, rfl, .inr series⟩

theorem laid_members {members : List (Text × Tree)} {s : Text}
    (h : Laid Manner.plain (.object members) s) :
    ∃ inner, s = .char '\x7b' :: (inner ++ [.char '\x7d']) ∧
      Inside (Named Manner.plain (Laid Manner.plain)) members inner := by
  cases h with
  | noMember gap => exact ⟨_, rfl, .inl ⟨rfl, gap⟩⟩
  | object series => exact ⟨_, rfl, .inr series⟩

theorem closes_bracket {c : Char} (bracket : c = ']' ∨ c = '\x7d') (r : Text) :
    Closes (.char c :: r) :=
  ⟨c, r, rfl, bracket⟩

/-- A text begins with at most one text of a tree, and the trees of this one are alike. -/
theorem laid_cut (v : Tree) : CutBy (Laid Manner.plain) Alike v := by
  induction v using Tree.induct with
  | null => exact word_cut rfl
  | word w x => exact word_cut rfl
  | number w => exact word_cut rfl
  | string body =>
      intro v' s s' r r' h h' ends ends' text
      have same := opening_same h h' text
      cases v' with
      | string body' =>
          cases h with
          | string body_ =>
              cases h' with
              | string body'_ =>
                  obtain ⟨rfl, -⟩ := between_unique body_ body'_ text
                  exact ⟨rfl, alike_refl _⟩
      | _ => cases same
  | array items ih =>
      intro v' s s' r r' h h' ends ends' text
      have same := opening_same h h' text
      have closing (r : Text) := closes_bracket (.inl rfl) r
      cases v' with
      | array items' =>
          obtain ⟨inner, rfl, inside⟩ := laid_array h
          obtain ⟨inner', rfl, inside'⟩ := laid_array h'
          rw [brackets_text, brackets_text] at text
          obtain ⟨rfl, alike⟩ := inside_unique (fun _ _ => laid_opens) ih inside inside' (closing r)
            (closing r') (List.cons.inj text).2
          exact ⟨rfl, items_alike alike⟩
      | _ => cases same
  | object members ih =>
      intro v' s s' r r' h h' ends ends' text
      have same := opening_same h h' text
      have closing (r : Text) := closes_bracket (.inr rfl) r
      cases v' with
      | object members' =>
          obtain ⟨inner, rfl, inside⟩ := laid_members h
          obtain ⟨inner', rfl, inside'⟩ := laid_members h'
          rw [brackets_text, brackets_text] at text
          obtain ⟨rfl, alike⟩ := inside_unique (fun _ _ => named_opens)
            (fun m among => named_cut (ih m among)) inside inside' (closing r) (closing r')
            (List.cons.inj text).2
          exact ⟨rfl, members_alike alike⟩
      | _ => cases same

/-- Two trees of a text mean the same. -/
theorem written_alike {v v' : Tree} {t : Text} (h : Written Manner.plain v t)
    (h' : Written Manner.plain v' t) : Alike v v' := by
  obtain @⟨g, s, e, gap, laid, ending⟩ := h
  generalize text : g ++ (s ++ e) = t at h'
  obtain ⟨gap', laid', ending'⟩ := h'
  have ends {e : Text} (ending : Ending Manner.plain e) : Joins e := by
    have joined := gap_joins (ending_plain ending) joins_nil
    rwa [List.append_nil] at joined
  obtain ⟨rfl, rest⟩ := gap_unique gap gap' (opens_front (laid_opens laid) _)
    (opens_front (laid_opens laid') _) text
  exact (laid_cut v _ _ _ _ _ laid laid' (ends ending) (ends ending') rest).2

end Variables

end ApprovedOps
