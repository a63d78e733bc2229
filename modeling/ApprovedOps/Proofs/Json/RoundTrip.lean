import ApprovedOps.Text.Blank
import ApprovedOps.Proofs.Dictionary
import ApprovedOps.Proofs.Except
import ApprovedOps.Proofs.Json.Numbers

/-! # Written values

Every value that is read can be written, and what is written is read as the same value. A value that
is read has no integer that is too long, only numbers of the format, and objects without two fields
of one name.
-/

namespace ApprovedOps

namespace Json

/-- Can a text hold the value? -/
inductive Readable : Json → Prop where
  | null : Readable .null
  | bool (b : Bool) : Readable (.bool b)
  | integer {i : Int} (short : (Nat.toDigits 10 i.natAbs).length ≤ maxIntegerDigits) :
      Readable (.integer i)
  | real {x : Binary64} (proper : x.Proper) : Readable (.real x)
  | string (t : Text) : Readable (.string t)
  | array {items : List Json} (all : ∀ v ∈ items, Readable v) : Readable (.array items)
  | object {fields : List (Text × Json)} (distinct : (fields.map Prod.fst).Nodup)
      (all : ∀ f ∈ fields, Readable f.2) : Readable (.object fields)

namespace Reader

/-! ## Strings -/

theorem unit_value (p : CodePoint) : unit p.value = p := by
  cases p with
  | surrogate offset =>
      have invalid : ¬(0xD800 + offset.val).isValidChar := by
        have := offset.isLt
        simp only [Nat.isValidChar]
        omega
      have surrogate_ : 0xD800 ≤ 0xD800 + offset.val ∧ 0xD800 + offset.val < 0xE000 := by
        have := offset.isLt
        omega
      simp [unit, CodePoint.value, CodePoint.ofNat?, invalid, surrogate_]
  | char c =>
      have valid : c.toNat.isValidChar := c.valid
      rw [unit, CodePoint.value, CodePoint.ofNat?, dif_pos valid, Option.getD_some]
      have same := Char.ofNat_toNat c
      rw [Char.ofNat, dif_pos valid] at same
      exact congrArg CodePoint.char same

/-- The four digits of a control character. -/
theorem hex_control : ∀ n < 0x20, ∃ x y : Char,
    Text.hex 4 n = [.char '0', .char '0', .char x, .char y] ∧
    ∃ i j, CodePoint.hexValue? (.char x) = some i ∧ CodePoint.hexValue? (.char y) = some j ∧
      i * 16 + j = n := by
  intro n small
  refine ⟨Nat.digitChar (n / 16), Nat.digitChar (n % 16), ?_, n / 16, n % 16, ?_, ?_, by omega⟩
  all_goals
    revert n
    decide

theorem numericEscape_hex {p : CodePoint} (small : p.value < 0x20) {rest : Text}
    (more : rest ≠ []) :
    Reads (numericEscape (Text.hex 4 p.value ++ rest)) p rest := by
  obtain ⟨x, y, text, i, j, first, second, value⟩ := hex_control p.value small
  cases rest with
  | nil => exact absurd rfl more
  | cons e rest =>
      rw [text]
      have zero : CodePoint.hexValue? (.char '0') = some 0 := rfl
      have four : fourDigits? ([.char '0', .char '0', .char x, .char y] ++ e :: rest) =
          some (p.value, ⟨e :: rest, rfl, List.cons_ne_nil e rest⟩) := by
        simp [fourDigits?, zero, first, second, value]
      refine ⟨by simp, ?_⟩
      rw [numericEscape, four]
      have low : ¬(0xD800 ≤ p.value ∧ p.value < 0xDC00) := by omega
      simp only [low, if_false, unit_value]

theorem string_plain {opening : Nat} {c : CodePoint} {s t rest : Text} (notQuote : c ≠ .char '"')
    (notSlash : c ≠ .char '\\') (printable : ¬c.value < 0x20)
    (tail : Reads (string opening s) t rest) : Reads (string opening (c :: s)) (c :: t) rest := by
  obtain ⟨shorter, reads⟩ := tail
  refine ⟨length_lt_cons_of_lt c shorter, ?_⟩
  rw [string.eq_def]
  dsimp only
  rw [if_neg notQuote, if_neg notSlash, if_neg printable, reads]
  rfl

theorem string_letter {opening : Nat} {d p : CodePoint} {s t rest : Text}
    (letter : escapeLetter? d = some p) (tail : Reads (string opening s) t rest) :
    Reads (string opening (.char '\\' :: d :: s)) (p :: t) rest := by
  obtain ⟨shorter, reads⟩ := tail
  have notU : d ≠ .char 'u' := by
    rintro rfl
    cases letter
  refine ⟨length_lt_cons_of_lt _ (length_lt_cons_of_lt d shorter), ?_⟩
  rw [string.eq_def]
  dsimp only
  rw [if_neg (by decide), if_pos rfl, if_neg notU, letter]
  dsimp only
  rw [reads]
  rfl

theorem string_numeric {opening : Nat} {p : CodePoint} {digits s t rest : Text}
    (escape : Reads (numericEscape (digits ++ s)) p s) (tail : Reads (string opening s) t rest) :
    Reads (string opening (.char '\\' :: .char 'u' :: (digits ++ s))) (p :: t) rest := by
  obtain ⟨shorter, reads⟩ := tail
  obtain ⟨shorter', escape⟩ := escape
  refine ⟨by simp at shorter' ⊢; omega, ?_⟩
  rw [string.eq_def]
  dsimp only
  rw [if_neg (by decide), if_pos rfl, if_pos rfl, escape]
  simp only [bind, Except.bind]
  rw [reads]
  rfl

/-- A code point is written as an escape letter, as a number, or as itself. -/
theorem escape_cases (p : CodePoint) :
    (∃ d, escape p = [.char '\\', d] ∧ escapeLetter? d = some p) ∨
    (p.value < 0x20 ∧ escape p = .char '\\' :: .char 'u' :: Text.hex 4 p.value) ∨
    (escape p = [p] ∧ p ≠ .char '"' ∧ p ≠ .char '\\' ∧ ¬p.value < 0x20) := by
  by_cases quote : p = .char '"'
  · exact .inl ⟨.char '"', by rw [quote]; rfl, by rw [quote]; rfl⟩
  by_cases slash : p = .char '\\'
  · exact .inl ⟨.char '\\', by rw [slash]; rfl, by rw [slash]; rfl⟩
  by_cases newline : p = .char '\n'
  · exact .inl ⟨.char 'n', by rw [newline]; rfl, by rw [newline]; rfl⟩
  by_cases return_ : p = .char '\r'
  · exact .inl ⟨.char 'r', by rw [return_]; rfl, by rw [return_]; rfl⟩
  by_cases tab : p = .char '\t'
  · exact .inl ⟨.char 't', by rw [tab]; rfl, by rw [tab]; rfl⟩
  by_cases page : p = .char '\x0c'
  · exact .inl ⟨.char 'f', by rw [page]; rfl, by rw [page]; rfl⟩
  by_cases back : p = .char '\x08'
  · exact .inl ⟨.char 'b', by rw [back]; rfl, by rw [back]; rfl⟩
  have other : escape p = if p.value < 0x20 then "\\u" ++ Text.hex 4 p.value else [p] := by
    rw [escape, if_neg quote, if_neg slash, if_neg newline, if_neg return_, if_neg tab, if_neg page,
      if_neg back]
  by_cases control : p.value < 0x20
  · rw [if_pos control] at other
    exact .inr (.inl ⟨control, other⟩)
  · rw [if_neg control] at other
    exact .inr (.inr ⟨other, quote, slash, control⟩)

/-- What is written for a code point inside a string is read as it. -/
theorem string_escape {opening : Nat} {p : CodePoint} {s t rest : Text} (more : s ≠ [])
    (tail : Reads (string opening s) t rest) :
    Reads (string opening (escape p ++ s)) (p :: t) rest := by
  obtain ⟨d, text, letter⟩ | ⟨control, text⟩ | ⟨text, quote, slash, printable⟩ := escape_cases p
  · rw [text]
    exact string_letter letter tail
  · rw [text]
    exact string_numeric (numericEscape_hex control more) tail
  · rw [text]
    exact string_plain quote slash printable tail

theorem string_quote (opening : Nat) (t rest : Text) :
    Reads (string opening (t.flatMap escape ++ .char '"' :: rest)) t rest := by
  induction t with
  | nil =>
      change Reads (string opening (.char '"' :: rest)) [] rest
      refine ⟨length_lt_cons _ _, ?_⟩
      rw [string.eq_def]
      dsimp only
      rw [if_pos rfl]
  | cons p t ih =>
      rw [List.flatMap_cons, List.append_assoc]
      exact string_escape (by simp) ih

/-! ## Brackets and separators -/

theorem closing?_some {close : Char} {s r : Text} (h : s.dropWhile isBlank = .char close :: r) :
    ∃ shorter, closing? close s = some ⟨r, shorter⟩ := by
  have suffix := (List.dropWhile_suffix (l := s) isBlank).length_le
  rw [h] at suffix
  refine ⟨suffix, ?_⟩
  have skipped : skipBlanks s = ⟨.char close :: r, Nat.le_of_lt_succ (Nat.lt_succ_of_le suffix)⟩ :=
    Subtype.ext h
  rw [closing?, skipped]
  simp

theorem closing?_none {close : Char} {c : CodePoint} {s r : Text} (h : s.dropWhile isBlank = c :: r)
    (other : c ≠ .char close) : closing? close s = none := by
  have suffix := (List.dropWhile_suffix (l := s) isBlank).length_le
  rw [h] at suffix
  have skipped : skipBlanks s = ⟨c :: r, suffix⟩ := Subtype.ext h
  rw [closing?, skipped]
  simp [other]

theorem separator_ok {c : Char} {s r t : Text} (cause : Cause)
    (h : s.dropWhile isBlank = .char c :: r) (h' : r.dropWhile isBlank = t) :
    ∃ shorter, separator c cause s = .ok ⟨t, shorter⟩ := by
  have suffix := (List.dropWhile_suffix (l := s) isBlank).length_le
  have inner := (List.dropWhile_suffix (l := r) isBlank).length_le
  rw [h] at suffix
  rw [h'] at inner
  refine ⟨by simp at suffix; omega, ?_⟩
  have skipped : skipBlanks s = ⟨.char c :: r, suffix⟩ := Subtype.ext h
  have skipped' : skipBlanks r = ⟨t, inner⟩ := Subtype.ext h'
  rw [separator, skipped]
  simp [skipped']

theorem skip_newline {s : Text} (indent level : Nat)
    (solid : ∀ c, s.head? = some c → isBlank c = false) :
    (newline indent level ++ s).dropWhile isBlank = s := by
  have blanks : ∀ c ∈ newline indent level, isBlank c = true := by
    intro c among
    obtain rfl | later := List.mem_cons.mp among
    · rfl
    · rw [(List.mem_replicate.mp later).2]
      rfl
  rw [List.dropWhile_append_of_pos blanks]
  cases s with
  | nil => rfl
  | cons c s => rw [List.dropWhile_cons_of_neg (by simp [solid c rfl])]

/-! ## Numbers and words -/

theorem whole?_head {s : Text} (h : whole? s ≠ none) :
    ∃ d r, s = .char d :: r ∧ d.isDigit = true := by
  cases s with
  | nil => exact absurd rfl h
  | cons c r =>
      by_cases zero : c = .char '0'
      · exact ⟨'0', r, by rw [zero], rfl⟩
      by_cases digit : c.isAsciiDigit = true
      · cases c with
        | char d => exact ⟨d, r, rfl, digit⟩
        | surrogate offset => cases digit
      · exact absurd (by simp [whole?, zero, digit]) h

/-- Does the text begin with a digit, or with a minus sign and a digit? -/
def Numeric (s : Text) : Prop :=
  ∃ d r, d.isDigit = true ∧ (s = .char d :: r ∨ s = .char '-' :: .char d :: r)

theorem number_head {s rest : Text} {v : Json} (reads : Reads (number s) v rest) : Numeric s := by
  obtain ⟨shorter, reads⟩ := reads
  have whole : whole? (sign s).2.1 ≠ none := by
    intro missing
    rw [number] at reads
    generalize sign s = signed at reads missing
    obtain ⟨negative, r₀, h₀⟩ := signed
    dsimp only at reads missing
    rw [missing] at reads
    cases reads
  obtain ⟨d, r, text, digit⟩ := whole?_head whole
  refine ⟨d, r, digit, ?_⟩
  cases s with
  | nil => cases text
  | cons c t =>
      by_cases minus : c = .char '-'
      · simp only [sign, minus, if_true] at text
        exact .inr (by rw [minus, text])
      · simp only [sign, minus, if_false] at text
        exact .inl text

theorem word?_none {s : Text} {ws : List (Text × Json)}
    (others : ∀ w ∈ ws, w.1 ≠ [] → w.1.isPrefixOf s = false) : word? s ws = none := by
  induction ws with
  | nil => rfl
  | cons w ws ih =>
      have later := ih fun w among => others w (List.mem_cons_of_mem _ among)
      obtain ⟨word, v⟩ := w
      cases word with
      | nil => exact later
      | cons c word =>
          have other := others (c :: word, v) List.mem_cons_self nofun
          rw [word?, dif_neg (by simp only [other]; decide), later]

theorem word?_numeric {s : Text} (numeric : Numeric s) : word? s words = none := by
  obtain ⟨d, r, digit, text⟩ := numeric
  have digit_ : CodePoint.isAsciiDigit (.char d) = true := digit
  have heads : ∀ w ∈ words, w.1.head?.any CodePoint.isAsciiDigit = false := by decide
  have seconds : ∀ w ∈ words, (w.1.drop 1).head?.any CodePoint.isAsciiDigit = false := by decide
  refine word?_none fun w among some_ => ?_
  have head := heads w among
  have second := seconds w among
  obtain ⟨word, v⟩ := w
  obtain rfl | rfl := text
  · cases word with
    | nil => exact absurd rfl some_
    | cons c word =>
        have other : c ≠ .char d := by
          rintro rfl
          rw [List.head?_cons, Option.any_some, digit_] at head
          cases head
        simp [List.isPrefixOf, other]
  · match word with
    | [] => exact absurd rfl some_
    | [c] =>
        have alone : ∀ w ∈ words, w.1.length ≠ 1 := by decide
        exact absurd rfl (alone _ among)
    | c :: c' :: word =>
        have other : c' ≠ .char d := by
          rintro rfl
          rw [List.drop_succ_cons, List.drop_zero, List.head?_cons, Option.any_some, digit_]
            at second
          cases second
        simp [List.isPrefixOf, other]

theorem value_numeric {s : Text} (numeric : Numeric s) : value s = number s := by
  have noWord := word?_numeric numeric
  obtain ⟨d, r, digit, text⟩ := numeric
  have plain : ∃ c t, s = .char c :: t ∧ c ≠ '"' ∧ c ≠ '\x7b' ∧ c ≠ '[' := by
    obtain rfl | rfl := text
    · refine ⟨d, r, rfl, ?_, ?_, ?_⟩ <;>
      · rintro rfl
        cases digit
    · exact ⟨'-', _, rfl, by decide, by decide, by decide⟩
  obtain ⟨c, t, rfl, quote, brace, bracket⟩ := plain
  rw [value.eq_def]
  dsimp only
  rw [if_neg (by simpa using quote), if_neg (by simpa using brace), if_neg (by simpa using bracket),
    noWord]

theorem value_number {s rest : Text} {v : Json} (reads : Reads (number s) v rest) :
    Reads (value s) v rest := by
  rwa [value_numeric (number_head reads)]

/-- A word is a value, whatever follows it. -/
theorem value_word (rest : Text) : ∀ w ∈ words, Reads (value (w.1 ++ rest)) w.2 rest := by
  intro w among
  have some_ : ∀ w ∈ words, 0 < w.1.length := by decide
  refine ⟨by have := some_ w among; simp; omega, ?_⟩
  rw [value.eq_def]
  simp only [words, List.mem_cons, List.not_mem_nil, or_false] at among
  obtain rfl | rfl | rfl | rfl | rfl | rfl := among <;> rfl

/-! ## Values -/

/-- Can the code point be the first one of a value? -/
def opens (c : CodePoint) : Bool :=
  !c.isBlank && c ≠ .char ']' && c ≠ .char '\x7d' && c ≠ .char ',' && c ≠ .char '\uFEFF'

theorem isBlank_of_opens {c : CodePoint} (h : opens c = true) : isBlank c = false := by
  cases blank : isBlank c with
  | false => rfl
  | true =>
      simp only [isBlank, Bool.or_eq_true, decide_eq_true_eq] at blank
      obtain ((rfl | rfl) | rfl) | rfl := blank <;> cases h

theorem stops_nil : Stops [] := nofun

theorem opens_numeric {s : Text} (numeric : Numeric s) : ∃ c r, s = c :: r ∧ opens c = true := by
  obtain ⟨d, r, digit, text⟩ := numeric
  obtain rfl | rfl := text
  · refine ⟨d, r, rfl, ?_⟩
    have range : 48 ≤ d.toNat ∧ d.toNat ≤ 57 := by
      simp only [Char.isDigit, Bool.and_eq_true, decide_eq_true_eq, ge_iff_le,
        UInt32.le_iff_toNat_le]
        at digit
      exact digit
    have others : d ≠ ']' ∧ d ≠ '\x7d' ∧ d ≠ ',' ∧ d ≠ '\uFEFF' := by
      refine ⟨?_, ?_, ?_, ?_⟩ <;>
      · rintro rfl
        cases digit
    have solid : CodePoint.isBlank (.char d) = false := by
      grind [CodePoint.isBlank, CodePoint.value]
    simp [opens, others, solid]
  · exact ⟨'-', _, rfl, rfl⟩

/-- What is written for a value begins neither with a blank nor with a closing bracket. -/
theorem render_opens {v : Json} (readable : Readable v) (indent level : Nat) :
    ∃ c r, v.renderAt indent level = c :: r ∧ opens c = true := by
  cases readable with
  | null =>
      rw [renderAt]
      exact ⟨'n', _, rfl, rfl⟩
  | bool b =>
      cases b
      · rw [renderAt]
        exact ⟨'f', _, rfl, rfl⟩
      · rw [renderAt]
        exact ⟨'t', _, rfl, rfl⟩
  | @integer i short =>
      have reads := number_integer short stops_nil
      rw [List.append_nil] at reads
      rw [renderAt]
      exact opens_numeric (number_head reads)
  | @real x proper =>
      rw [renderAt]
      cases x with
      | finite negative m e =>
          have reads := number_render negative proper stops_nil
          rw [List.append_nil] at reads
          exact opens_numeric (number_head reads)
      | infinite negative =>
          cases negative
          · exact ⟨'I', _, rfl, rfl⟩
          · exact ⟨'-', _, rfl, rfl⟩
      | nan => exact ⟨'N', _, rfl, rfl⟩
  | string t =>
      rw [renderAt]
      exact ⟨'"', _, rfl, rfl⟩
  | @array items all =>
      cases items with
      | nil =>
          rw [renderAt]
          exact ⟨'[', _, rfl, rfl⟩
      | cons v vs =>
          rw [renderAt]
          exact ⟨'[', _, rfl, rfl⟩
  | @object fields distinct all =>
      cases fields with
      | nil =>
          rw [renderAt]
          exact ⟨'\x7b', _, rfl, rfl⟩
      | cons f fields =>
          rw [renderAt]
          exact ⟨'\x7b', _, rfl, rfl⟩

/-- The text can be followed by what no number goes on with, so a value is read back in front of
    it. -/
def ReadsBack (indent : Nat) (v : Json) : Prop :=
  ∀ level rest, Stops rest → Reads (value (v.renderAt indent level ++ rest)) v rest

theorem render_solid {v : Json} (readable : Readable v) (indent level : Nat) (more : Text) :
    ∀ d, (v.renderAt indent level ++ more).head? = some d → isBlank d = false := by
  obtain ⟨c, r, text, solid⟩ := render_opens readable indent level
  intro d first
  rw [text] at first
  cases first
  exact isBlank_of_opens solid

theorem stops_cons {c : Char} (h : c = ',' ∨ c = '\n') (r : Text) : Stops (.char c :: r) := by
  rintro c' ⟨⟩
  obtain rfl | rfl := h <;> exact ⟨by decide, by decide, by decide, by decide⟩

/-- Does reading a piece end as it should: with a result and a rest, or with a failure? -/
def Gives {α : Type} {s : Text} (x : Step α s) (outcome : Except Failure α) (rest : Text) : Prop :=
  match outcome with
  | .ok a => Reads x a rest
  | .error e => x = .error e

/-- The last element is read, and the end of the array. -/
theorem elements_last {s r rest : Text} {x : Except Failure Json} (gives : Gives (value s) x r)
    (closes : r.dropWhile isBlank = .char ']' :: rest) :
    Gives (elements s) (x.map fun v => [v]) rest := by
  cases x with
  | error e =>
      have fails : value s = .error e := gives
      change elements s = .error e
      rw [elements, fails]
      rfl
  | ok v =>
      obtain ⟨longer, reads⟩ := gives
      obtain ⟨shorter, closed⟩ := closing?_some closes
      refine ⟨by omega, ?_⟩
      rw [elements, reads]
      simp only [bind, Except.bind]
      rw [closed]
      rfl

/-- An element is read, a comma, and the other elements. -/
theorem elements_next {s r t next rest : Text} {x : Except Failure Json}
    {y : Except Failure (List Json)} (gives : Gives (value s) x r)
    (comma : r.dropWhile isBlank = .char ',' :: t) (skipped : t.dropWhile isBlank = next)
    (later : Gives (elements next) y rest) :
    Gives (elements s) (x.bind fun v => y.map fun vs => v :: vs) rest := by
  cases x with
  | error e =>
      have fails : value s = .error e := gives
      change elements s = .error e
      rw [elements, fails]
      rfl
  | ok v =>
      obtain ⟨longer, reads⟩ := gives
      obtain ⟨shorter, separated⟩ := separator_ok .expectingComma comma skipped
      have here : elements s = (elements next).bind fun p =>
          .ok (v :: p.1, ⟨p.2.1, by have shorter₂ := p.2.2; omega⟩) := by
        rw [elements, reads]
        simp only [bind, Except.bind]
        rw [closing?_none comma (by decide)]
        dsimp only
        rw [separated]
        rfl
      cases y with
      | error e =>
          have fails : elements next = .error e := later
          change elements s = .error e
          rw [here, fails]
          rfl
      | ok vs =>
          obtain ⟨shorter₂, later⟩ := later
          refine ⟨by omega, ?_⟩
          rw [here, later]
          rfl

theorem elements_render {indent level : Nat} {v : Json} {vs : List Json}
    (all : ∀ x ∈ v :: vs, Readable x) (back : ∀ x ∈ v :: vs, ReadsBack indent x) (rest : Text) :
    Reads (elements (v.renderAt indent level ++ (renderItems indent level vs ++
      (newline indent (level - 1) ++ .char ']' :: rest)))) (v :: vs) rest := by
  induction vs generalizing v with
  | nil =>
      have closes : (newline indent (level - 1) ++ .char ']' :: rest).dropWhile isBlank =
          .char ']' :: rest := skip_newline _ _ (by rintro c ⟨⟩; rfl)
      rw [renderItems, List.nil_append]
      exact elements_last (x := .ok v)
        (back v List.mem_cons_self level _ (stops_cons (.inr rfl) _)) closes
  | cons w ws ih =>
      have others : ∀ x ∈ w :: ws, x ∈ v :: w :: ws := fun x => List.mem_cons_of_mem v
      have later :=
        ih (fun x among => all x (others x among)) fun x among => back x (others x among)
      have solid := render_solid (all w (others w List.mem_cons_self)) indent level
        (renderItems indent level ws ++ (newline indent (level - 1) ++ .char ']' :: rest))
      have split : renderItems indent level (w :: ws) ++ (newline indent (level - 1) ++
          .char ']' :: rest) = .char ',' :: (newline indent level ++ (w.renderAt indent level ++
            (renderItems indent level ws ++
              (newline indent (level - 1) ++ .char ']' :: rest)))) := by
        rw [renderItems]
        simp
      rw [split]
      exact elements_next (x := .ok v) (y := .ok (w :: ws))
        (back v List.mem_cons_self level _ (stops_cons (.inl rfl) _)) rfl
        (skip_newline _ _ solid) later

theorem memberName_quote (key s : Text) : Reads (memberName (quote key ++ s)) key s := by
  have text : quote key ++ s = .char '"' :: (key.flatMap escape ++ .char '"' :: s) := by
    simp [quote]
  obtain ⟨shorter, reads⟩ := string_quote ((key.flatMap escape ++ .char '"' :: s).length + 1) key s
  rw [text]
  refine ⟨length_lt_cons_of_lt _ shorter, ?_⟩
  rw [memberName, if_pos rfl, reads]
  rfl

theorem new_key {before fields : List (Text × Json)} {key : Text} {v : Json}
    (distinct : ((before ++ (key, v) :: fields).map Prod.fst).Nodup) :
    key ∉ before.map Prod.fst := by
  intro old
  rw [List.map_append, List.map_cons] at distinct
  exact (List.nodup_append.mp distinct).2.2 key old key List.mem_cons_self rfl

/-- Does the text begin with a name, a colon, and what ends as it should? -/
def Member (s : Text) (key : Text) (x : Except Failure Json) (r : Text) : Prop :=
  ∃ r₁ r₂, Reads (memberName s) key r₁ ∧ (∃ h, separator ':' .expectingColon r₁ = .ok ⟨r₂, h⟩) ∧
    Gives (value r₂) x r

theorem member_start (key : Text) {s r : Text} {x : Except Failure Json}
    (solid : ∀ c, s.head? = some c → isBlank c = false) (gives : Gives (value s) x r) :
    Member (quote key ++ (Text.ofString ": " ++ s)) key x r := by
  have skipped : (CodePoint.char ' ' :: s).dropWhile isBlank = s := by
    cases s with
    | nil => rfl
    | cons c s =>
        have blank : isBlank (.char ' ') = true := rfl
        rw [List.dropWhile_cons_of_pos blank, List.dropWhile_cons_of_neg (by simp [solid c rfl])]
  have colon : (Text.ofString ": " ++ s).dropWhile isBlank = .char ':' :: .char ' ' :: s := rfl
  obtain ⟨shorter, separated⟩ := separator_ok .expectingColon colon skipped
  have name := memberName_quote key (Text.ofString ": " ++ s)
  exact ⟨_, s, name, ⟨shorter, separated⟩, gives⟩

/-- The last member is read, and the end of the object. -/
theorem members_last {before : Dictionary Json} {key s r rest : Text} {x : Except Failure Json}
    (member : Member s key x r) (closes : r.dropWhile isBlank = .char '\x7d' :: rest) :
    Gives (members before s) (x.map fun v => before.insert key v) rest := by
  obtain ⟨r₁, r₂, ⟨h₁, name⟩, ⟨h₂, separated⟩, gives⟩ := member
  cases x with
  | error e =>
      have fails : value r₂ = .error e := gives
      change members before s = .error e
      rw [members, name]
      simp only [bind, Except.bind]
      rw [separated]
      dsimp only
      rw [fails]
  | ok v =>
      obtain ⟨h₃, value_⟩ := gives
      obtain ⟨shorter, closed⟩ := closing?_some closes
      refine ⟨by omega, ?_⟩
      rw [members, name]
      simp only [bind, Except.bind]
      rw [separated]
      dsimp only
      rw [value_]
      dsimp only
      rw [closed]
      rfl

/-- A member is read, a comma, and the other members. -/
theorem members_next {before : Dictionary Json} {key s r t next rest : Text}
    {x : Except Failure Json} {f : Json → Except Failure (Dictionary Json)}
    (member : Member s key x r) (comma : r.dropWhile isBlank = .char ',' :: t)
    (skipped : t.dropWhile isBlank = next)
    (later : ∀ v, x = .ok v → Gives (members (before.insert key v) next) (f v) rest) :
    Gives (members before s) (x.bind f) rest := by
  obtain ⟨r₁, r₂, ⟨h₁, name⟩, ⟨h₂, separated⟩, gives⟩ := member
  cases x with
  | error e =>
      have fails : value r₂ = .error e := gives
      change members before s = .error e
      rw [members, name]
      simp only [bind, Except.bind]
      rw [separated]
      dsimp only
      rw [fails]
  | ok v =>
      obtain ⟨h₃, value_⟩ := gives
      obtain ⟨shorter, parted⟩ := separator_ok .expectingComma comma skipped
      have here : members before s = (members (before.insert key v) next).bind
          fun p => .ok (p.1, ⟨p.2.1, by have shorter₂ := p.2.2; omega⟩) := by
        rw [members, name]
        simp only [bind, Except.bind]
        rw [separated]
        dsimp only
        rw [value_]
        dsimp only
        rw [closing?_none comma (by decide)]
        dsimp only
        rw [parted]
        rfl
      have later := later v rfl
      change Gives (members before s) (f v) rest
      cases outcome : f v with
      | error e =>
          have fails : members (before.insert key v) next = .error e := by
            rwa [outcome] at later
          change members before s = .error e
          rw [here, fails]
          rfl
      | ok fields =>
          rw [outcome] at later
          obtain ⟨shorter₂, later⟩ := later
          refine ⟨by omega, ?_⟩
          rw [here, later]
          rfl

theorem members_render {indent level : Nat} {before fields : List (Text × Json)} {key : Text}
    {v : Json} (distinct : ((before ++ (key, v) :: fields).map Prod.fst).Nodup)
    (all : ∀ f ∈ (key, v) :: fields, Readable f.2)
    (back : ∀ f ∈ (key, v) :: fields, ReadsBack indent f.2) (rest : Text) :
    Reads (members before (quote key ++ (Text.ofString ": " ++ (v.renderAt indent level ++
      (renderFields indent level fields ++ (newline indent (level - 1) ++ .char '\x7d' :: rest))))))
      (before ++ (key, v) :: fields) rest := by
  have readable : Readable v := all (key, v) List.mem_cons_self
  induction fields generalizing before key v with
  | nil =>
      have closes : (newline indent (level - 1) ++ .char '\x7d' :: rest).dropWhile isBlank =
          .char '\x7d' :: rest := skip_newline _ _ (by rintro c ⟨⟩; rfl)
      rw [renderFields, List.nil_append]
      rw [← Dictionary.insert_new (new_key distinct)]
      exact members_last (x := .ok v) (member_start key (render_solid readable _ _ _)
        (back (key, v) List.mem_cons_self level _ (stops_cons (.inr rfl) _))) closes
  | cons f fields ih =>
      obtain ⟨key', w⟩ := f
      have others : ∀ f ∈ (key', w) :: fields, f ∈ (key, v) :: (key', w) :: fields :=
        fun f => List.mem_cons_of_mem (key, v)
      have distinct' : (((before ++ [(key, v)]) ++ (key', w) :: fields).map Prod.fst).Nodup := by
        simpa using distinct
      have later := ih distinct' (fun f among => all f (others f among))
        (fun f among => back f (others f among)) (all (key', w) (others _ List.mem_cons_self))
      rw [List.append_assoc, List.singleton_append, ← Dictionary.insert_new (new_key distinct)]
        at later
      have split : renderFields indent level ((key', w) :: fields) ++ (newline indent (level - 1) ++
          .char '\x7d' :: rest) = .char ',' :: (newline indent level ++ (quote key' ++
            (Text.ofString ": " ++ (w.renderAt indent level ++ (renderFields indent level fields ++
              (newline indent (level - 1) ++ .char '\x7d' :: rest)))))) := by
        rw [renderFields]
        simp
      rw [split]
      refine members_next (x := .ok v) (f := fun _ => .ok (before ++ (key, v) :: (key', w) :: fields))
        (member_start key (render_solid readable _ _ _)
          (back (key, v) List.mem_cons_self level _ (stops_cons (.inl rfl) _))) rfl
        (skip_newline _ _ (by rintro c ⟨⟩; rfl)) fun v' same => ?_
      cases same
      exact later

theorem value_array {s t rest : Text} {x : Except Failure (List Json)}
    (h : s.dropWhile isBlank = t) (opened : ∃ c r, t = c :: r ∧ opens c = true)
    (gives : Gives (elements t) x rest) :
    Gives (value (.char '[' :: s)) (x.map .array) rest := by
  obtain ⟨c, r, rfl, opens⟩ := opened
  have suffix := (List.dropWhile_suffix (l := s) isBlank).length_le
  rw [h] at suffix
  have skipped : skipBlanks s = ⟨c :: r, suffix⟩ := Subtype.ext h
  have open_ : closing? ']' s = none := closing?_none h (by rintro rfl; cases opens)
  have here : value (.char '[' :: s) = (elements (c :: r)).bind fun (items, ⟨r₂, h₂⟩) =>
      .ok (.array items, ⟨r₂, length_lt_cons_of_lt _ (Nat.lt_of_lt_of_le h₂ suffix)⟩) := by
    rw [value.eq_def]
    dsimp only
    rw [if_neg (by decide), if_neg (by decide), if_pos rfl, open_]
    dsimp only
    rw [skipped]
    rfl
  cases x with
  | error e =>
      have fails : elements (c :: r) = .error e := gives
      change value (.char '[' :: s) = .error e
      rw [here, fails]
      rfl
  | ok items =>
      obtain ⟨shorter, reads⟩ := gives
      refine ⟨by simp at shorter suffix ⊢; omega, ?_⟩
      rw [here, reads]
      rfl

theorem value_object {s t rest : Text} {x : Except Failure (Dictionary Json)}
    (h : s.dropWhile isBlank = t) (named : ∃ r, t = .char '"' :: r)
    (gives : Gives (members [] t) x rest) :
    Gives (value (.char '\x7b' :: s)) (x.map .object) rest := by
  obtain ⟨r, rfl⟩ := named
  have suffix := (List.dropWhile_suffix (l := s) isBlank).length_le
  rw [h] at suffix
  have skipped : skipBlanks s = ⟨.char '"' :: r, suffix⟩ := Subtype.ext h
  have open_ : closing? '\x7d' s = none := closing?_none h (by decide)
  have here : value (.char '\x7b' :: s) = (members [] (.char '"' :: r)).bind
      fun (fields, ⟨r₂, h₂⟩) =>
        .ok (.object fields, ⟨r₂, length_lt_cons_of_lt _ (Nat.lt_of_lt_of_le h₂ suffix)⟩) := by
    rw [value.eq_def]
    dsimp only
    rw [if_neg (by decide), if_pos rfl, open_]
    dsimp only
    rw [skipped]
    rfl
  cases x with
  | error e =>
      have fails : members [] (.char '"' :: r) = .error e := gives
      change value (.char '\x7b' :: s) = .error e
      rw [here, fails]
      rfl
  | ok fields =>
      obtain ⟨shorter, reads⟩ := gives
      refine ⟨by simp at shorter suffix ⊢; omega, ?_⟩
      rw [here, reads]
      rfl

theorem value_string (t rest : Text) : Reads (value (quote t ++ rest)) (.string t) rest := by
  have text : quote t ++ rest = .char '"' :: (t.flatMap escape ++ .char '"' :: rest) := by
    simp [quote]
  obtain ⟨shorter, reads⟩ :=
    string_quote ((t.flatMap escape ++ .char '"' :: rest).length + 1) t rest
  rw [text]
  refine ⟨length_lt_cons_of_lt _ shorter, ?_⟩
  rw [value.eq_def]
  dsimp only
  rw [if_pos rfl, reads]
  rfl

theorem value_empty_array {s rest : Text} (closes : s.dropWhile isBlank = .char ']' :: rest) :
    Reads (value (.char '[' :: s)) (.array []) rest := by
  obtain ⟨shorter, closed⟩ := closing?_some closes
  refine ⟨length_lt_cons_of_lt _ shorter, ?_⟩
  rw [value.eq_def]
  dsimp only
  rw [if_neg (by decide), if_neg (by decide), if_pos rfl, closed]

theorem value_empty_object {s rest : Text}
    (closes : s.dropWhile isBlank = .char '\x7d' :: rest) :
    Reads (value (.char '\x7b' :: s)) (.object []) rest := by
  obtain ⟨shorter, closed⟩ := closing?_some closes
  refine ⟨length_lt_cons_of_lt _ shorter, ?_⟩
  rw [value.eq_def]
  dsimp only
  rw [if_neg (by decide), if_pos rfl, closed]

theorem array_back {indent : Nat} {items : List Json} (all : ∀ v ∈ items, Readable v)
    (back : ∀ v ∈ items, ReadsBack indent v) : ReadsBack indent (.array items) := by
  intro level rest stops
  cases items with
  | nil =>
      rw [renderAt]
      exact value_empty_array rfl
  | cons v vs =>
      have solid := render_solid (all v List.mem_cons_self) indent (level + 1)
        (renderItems indent (level + 1) vs ++ (newline indent level ++ .char ']' :: rest))
      obtain ⟨c, r, text, opens⟩ := render_opens (all v List.mem_cons_self) indent (level + 1)
      have reads := value_array (x := .ok (v :: vs)) (skip_newline indent (level + 1) solid)
        (by rw [text]; exact ⟨c, _, rfl, opens⟩) (elements_render all back rest)
      have whole : renderAt indent level (.array (v :: vs)) ++ rest =
          .char '[' :: (newline indent (level + 1) ++ (v.renderAt indent (level + 1) ++
            (renderItems indent (level + 1) vs ++
              (newline indent level ++ .char ']' :: rest)))) := by
        rw [renderAt]
        simp
      rw [whole]
      exact reads

theorem object_back {indent : Nat} {fields : Dictionary Json}
    (distinct : (fields.map Prod.fst).Nodup) (all : ∀ f ∈ fields, Readable f.2)
    (back : ∀ f ∈ fields, ReadsBack indent f.2) : ReadsBack indent (.object fields) := by
  intro level rest stops
  cases fields with
  | nil =>
      rw [renderAt]
      exact value_empty_object rfl
  | cons f fields =>
      obtain ⟨key, v⟩ := f
      have solid : ∀ d, (quote key ++ (Text.ofString ": " ++ (v.renderAt indent (level + 1) ++
          (renderFields indent (level + 1) fields ++ (newline indent level ++
            .char '\x7d' :: rest))))).head? = some d → isBlank d = false := by
        rintro d ⟨⟩
        rfl
      have distinct' : (([] ++ (key, v) :: fields).map Prod.fst).Nodup := distinct
      have reads := value_object (x := .ok ((key, v) :: fields))
        (skip_newline indent (level + 1) solid) ⟨_, rfl⟩ (members_render distinct' all back rest)
      have whole : renderAt indent level (.object ((key, v) :: fields)) ++ rest =
          .char '\x7b' :: (newline indent (level + 1) ++ (quote key ++ (Text.ofString ": " ++
            (v.renderAt indent (level + 1) ++ (renderFields indent (level + 1) fields ++
              (newline indent level ++ .char '\x7d' :: rest)))))) := by
        rw [renderAt]
        simp
      rw [whole]
      exact reads

/-- What is written for a value is read as the value. -/
theorem readable_back {v : Json} (readable : Readable v) (indent : Nat) : ReadsBack indent v := by
  induction readable with
  | null =>
      intro level rest stops
      rw [renderAt]
      exact value_word rest (Text.ofString "null", .null) (by simp [words])
  | bool b =>
      intro level rest stops
      cases b
      · rw [renderAt]
        exact value_word rest (Text.ofString "false", .bool false) (by simp [words])
      · rw [renderAt]
        exact value_word rest (Text.ofString "true", .bool true) (by simp [words])
  | integer short =>
      intro level rest stops
      rw [renderAt]
      exact value_number (number_integer short stops)
  | @real x proper =>
      intro level rest stops
      rw [renderAt]
      cases x with
      | finite negative m e => exact value_number (number_render negative proper stops)
      | infinite negative =>
          cases negative
          · exact value_word rest (Text.ofString "Infinity", .real (.infinite false))
              (by simp [words])
          · exact value_word rest (Text.ofString "-Infinity", .real (.infinite true))
              (by simp [words])
      | nan => exact value_word rest (Text.ofString "NaN", .real .nan) (by simp [words])
  | string t =>
      intro level rest stops
      rw [renderAt]
      exact value_string t rest
  | array all ih => exact array_back all ih
  | object distinct all ih => exact object_back distinct all ih

/-! ## Values that are read -/

theorem digit_value {c : CodePoint} (digit : c.isAsciiDigit = true) : c.hexValue?.getD 0 < 10 := by
  cases c with
  | surrogate offset => cases digit
  | char d =>
      have isDigit : d.isDigit = true := digit
      have range : d.toNat ≤ 57 := by
        simp only [Char.isDigit, Bool.and_eq_true, decide_eq_true_eq, UInt32.le_iff_toNat_le]
          at isDigit
        exact isDigit.2
      have zero : '0'.toNat = 48 := rfl
      simp only [CodePoint.hexValue?, isDigit, if_true, Option.getD_some]
      omega

theorem digitsValue_lt {ds : Text} (all : ∀ d ∈ ds, d.isAsciiDigit = true) :
    digitsValue ds < 10 ^ ds.length := by
  have bound (n : Nat) :
      ds.foldl (fun n p => n * 10 + p.hexValue?.getD 0) n < (n + 1) * 10 ^ ds.length := by
    induction ds generalizing n with
    | nil => simp
    | cons d ds ih =>
        have small := digit_value (all d List.mem_cons_self)
        rw [List.foldl_cons, List.length_cons]
        refine Nat.lt_of_lt_of_le (ih (fun d among => all d (List.mem_cons_of_mem _ among)) _) ?_
        rw [Nat.pow_succ', ← Nat.mul_assoc]
        exact Nat.mul_le_mul_right _ (by omega)
  have whole := bound 0
  rw [Nat.zero_add, Nat.one_mul] at whole
  exact whole

theorem whole?_some {s ds : Text} {r : { r : Text // r.length < s.length }}
    (h : whole? s = some (ds, r)) : ds ≠ [] ∧ ∀ d ∈ ds, d.isAsciiDigit = true := by
  cases s with
  | nil => cases h
  | cons c t =>
      rw [whole?] at h
      split at h
      next zero =>
        cases h
        rw [zero]
        exact ⟨List.cons_ne_nil _ _, by decide⟩
      split at h
      next notZero digit =>
        cases h
        refine ⟨List.cons_ne_nil _ _, fun d among => ?_⟩
        obtain rfl | later := List.mem_cons.mp among
        · exact digit
        · exact List.all_eq_true.mp List.all_takeWhile d later
      next => cases h

theorem number_readable {s : Text} {v : Json} {r : { r : Text // r.length < s.length }}
    (h : number s = .ok (v, r)) : Readable v := by
  rw [number] at h
  generalize sign s = signed at h
  obtain ⟨negative, r₀, h₀⟩ := signed
  dsimp only at h
  split at h
  next => cases h
  next ds r₁ h₁ whole =>
    obtain ⟨some_, all⟩ := whole?_some whole
    generalize fraction r₁ = fraction_ at h
    obtain ⟨fs, r₂, h₂⟩ := fraction_
    dsimp only at h
    generalize exponent r₂ = exponent_ at h
    obtain ⟨power, r₃, h₃⟩ := exponent_
    dsimp only at h
    split at h
    · split at h
      · cases h
      next short =>
        cases h
        refine .integer ?_
        have digits_ : (Nat.toDigits 10 (digitsValue ds)).length ≤ ds.length :=
          (Nat.length_toDigits_le_iff (by decide) (List.length_pos_iff.mpr some_)).mpr
            (digitsValue_lt all)
        have abs : (if negative = true then -(digitsValue ds : Int) else digitsValue ds).natAbs =
            digitsValue ds := by
          cases negative <;> simp
        rw [abs]
        omega
    · cases h
      exact .real (Binary64.ofDecimal_proper _ _ _)

theorem word?_mem {s : Text} {ws : List (Text × Json)} {v : Json}
    {r : { r : Text // r.length < s.length }} (h : word? s ws = some (v, r)) :
    v ∈ ws.map Prod.snd := by
  induction ws with
  | nil => cases h
  | cons w ws ih =>
      obtain ⟨word, v'⟩ := w
      cases word with
      | nil => exact List.mem_cons_of_mem _ (ih h)
      | cons c word =>
          rw [word?] at h
          split at h
          · cases h
            exact List.mem_cons_self
          · exact List.mem_cons_of_mem _ (ih h)

theorem word?_readable {s : Text} {v : Json} {r : { r : Text // r.length < s.length }}
    (h : word? s words = some (v, r)) : Readable v := by
  have among := word?_mem h
  simp only [words, List.map_cons, List.map_nil, List.mem_cons, List.not_mem_nil, or_false] at among
  obtain rfl | rfl | rfl | rfl | rfl | rfl := among
  · exact .null
  · exact .bool true
  · exact .bool false
  · exact .real trivial
  · exact .real trivial
  · exact .real trivial

/-- Can a text hold the fields? -/
def ReadableFields (fields : Dictionary Json) : Prop :=
  (fields.map Prod.fst).Nodup ∧ ∀ f ∈ fields, Readable f.2

theorem readableFields_nil : ReadableFields [] :=
  ⟨List.nodup_nil, nofun⟩

theorem insert_readable {before : Dictionary Json} {v : Json} (key : Text)
    (fields : ReadableFields before) (readable : Readable v) :
    ReadableFields (before.insert key v) := by
  refine ⟨Dictionary.nodup_insert fields.1 key v, fun f among => ?_⟩
  obtain rfl | old := Dictionary.mem_insert among
  · exact readable
  · exact fields.2 f old

mutual

/-- What is read as a value can be written. -/
theorem value_readable {s : Text} {v : Json} {r : { r : Text // r.length < s.length }}
    (h : value s = .ok (v, r)) : Readable v := by
  match s, r, h with
  | [], _, h =>
      rw [value.eq_def] at h
      cases h
  | c :: t, r, h =>
      have inside := (skipBlanks t).2
      rw [value.eq_def] at h
      dsimp only at h
      split at h
      · obtain ⟨⟨text, r₁, h₁⟩, -, h⟩ := except_bind_ok h
        cases h
        exact .string text
      split at h
      · split at h
        · cases h
          exact .object List.nodup_nil nofun
        · obtain ⟨⟨fields, r₂, h₂⟩, members_, h⟩ := except_bind_ok h
          have readable := members_readable readableFields_nil members_
          cases h
          exact .object readable.1 readable.2
      split at h
      · split at h
        · cases h
          exact .array nofun
        · obtain ⟨⟨items, r₂, h₂⟩, elements_, h⟩ := except_bind_ok h
          have readable := elements_readable elements_
          cases h
          exact .array readable
      split at h
      next word =>
        cases h
        exact word?_readable word
      next => exact number_readable h
termination_by (s.length, 0)
decreasing_by all_goals exact Prod.Lex.left _ _ (by simp only [List.length_cons]; omega)

theorem elements_readable {s : Text} {vs : List Json} {r : { r : Text // r.length < s.length }}
    (h : elements s = .ok (vs, r)) : ∀ v ∈ vs, Readable v := by
  rw [elements] at h
  obtain ⟨⟨v, r₁, h₁⟩, value_, h⟩ := except_bind_ok h
  have first := value_readable value_
  dsimp only at h
  split at h
  · cases h
    intro w among
    rwa [List.mem_singleton.mp among]
  · obtain ⟨⟨r₂, h₂⟩, -, h⟩ := except_bind_ok h
    obtain ⟨⟨vs, r₃, h₃⟩, elements_, h⟩ := except_bind_ok h
    have others := elements_readable elements_
    cases h
    intro w among
    obtain rfl | later := List.mem_cons.mp among
    · exact first
    · exact others w later
termination_by (s.length, 1)

theorem members_readable {before : Dictionary Json} {s : Text} {fields : Dictionary Json}
    {r : { r : Text // r.length < s.length }} (fields_ : ReadableFields before)
    (h : members before s = .ok (fields, r)) : ReadableFields fields := by
  rw [members] at h
  obtain ⟨⟨key, r₁, h₁⟩, -, h⟩ := except_bind_ok h
  obtain ⟨⟨r₂, h₂⟩, -, h⟩ := except_bind_ok h
  obtain ⟨⟨v, r₃, h₃⟩, value_, h⟩ := except_bind_ok h
  have added := insert_readable key fields_ (value_readable value_)
  dsimp only at h
  split at h
  · cases h
    exact added
  · obtain ⟨⟨r₄, h₄⟩, -, h⟩ := except_bind_ok h
    obtain ⟨⟨all, r₅, h₅⟩, members_, h⟩ := except_bind_ok h
    have readable := members_readable added members_
    cases h
    exact readable
termination_by (s.length, 1)

end

end Reader

open Reader

theorem read_readable {t : Text} {v : Json} (h : read t = .ok v) : Readable v := by
  rw [read] at h
  split at h
  · cases h
  · obtain ⟨⟨w, r, h₁⟩, value_, h⟩ := except_bind_ok h
    dsimp only at h
    split at h
    · cases h
      exact value_readable value_
    · cases h

/-- What is written for a value that a text can hold is read as the value. -/
theorem read_render {v : Json} (readable : Readable v) (indent : Nat) :
    read (v.render indent) = .ok v := by
  obtain ⟨c, r, text, opens⟩ := render_opens readable indent 0
  have reads := readable_back readable indent 0 [] stops_nil
  rw [List.append_nil] at reads
  obtain ⟨shorter, reads⟩ := reads
  have start : (v.renderAt indent 0).dropWhile isBlank = v.renderAt indent 0 := by
    rw [text, List.dropWhile_cons_of_neg (by simp [isBlank_of_opens opens])]
  have skipped : skipBlanks (v.renderAt indent 0) = ⟨v.renderAt indent 0, Nat.le_refl _⟩ :=
    Subtype.ext start
  have noMark : ¬(v.renderAt indent 0).head? = some (.char '\uFEFF') := by
    rw [text]
    rintro ⟨⟩
    cases opens
  rw [render, read, if_neg noMark, skipped]
  dsimp only
  rw [reads]
  rfl

end Json

end ApprovedOps
