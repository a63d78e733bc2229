import ApprovedOps.Proofs.Variables.Reflected

/-! # Commas before closing brackets

A comma is dropped for what comes after it, whatever stands before it. Where no comma follows an
opening bracket, a text of a tree is left only of a text that has commas after last elements.
-/

namespace ApprovedOps

namespace Variables

open Json Json.Reader

/-! ## Led commas -/

/-- Is the next token a comma? -/
def commaNext (s : Text) : Bool :=
  (s.dropWhile isBlank).head? = some (.char ',')

/-- Does no comma outside strings follow an opening bracket? -/
def led (s : Text) : Bool :=
  match s with
  | [] => true
  | c :: r =>
    if c = .char '"' then
      match stringTail r with
      | some n => led (r.drop n)
      | none => led r
    else
      !(c ∈ Text.ofString "[\x7b" && commaNext r) && led r
termination_by s.length
decreasing_by all_goals simp only [List.length_cons, List.length_drop]; omega

theorem led_other {c : CodePoint} {r : Text} (h : led (c :: r) = true) (quote : c ≠ .char '"') :
    (c ∈ Text.ofString "[\x7b" → commaNext r = false) ∧ led r = true := by
  rw [led, if_neg quote] at h
  simpa [imp_iff_not_or] using h

theorem led_string {r : Text} {n : Nat} (tail : stringTail r = some n)
    (h : led (.char '"' :: r) = true) : led (r.drop n) = true := by
  rwa [led, if_pos rfl, tail] at h

/-! ## What is dropped -/

/-- What the pass makes of a text that begins with a code point. -/
inductive Dropping (c : CodePoint) (r : Text) : Prop where
  | string {n} : c = .char '"' → stringTail r = some n →
      dropCommas (c :: r) = .char '"' :: (r.take n ++ dropCommas (r.drop n)) → Dropping c r
  | dropped : c = .char ',' → closesNext r = true → dropCommas (c :: r) = dropCommas r →
      Dropping c r
  | kept : (c = .char '"' → stringTail r = none) → (c = .char ',' → closesNext r = false) →
      dropCommas (c :: r) = c :: dropCommas r → Dropping c r

theorem dropCommas_comma {r : Text} (next : closesNext r = true) :
    dropCommas (.char ',' :: r) = dropCommas r := by
  rw [dropCommas, if_neg (by decide), if_pos (by simp [next])]

theorem dropping (c : CodePoint) (r : Text) : Dropping c r := by
  by_cases quote : c = .char '"'
  · subst quote
    cases tail : stringTail r with
    | some n => exact .string rfl tail (by rw [dropCommas, if_pos rfl, tail]; rfl)
    | none =>
        exact .kept (fun _ => tail) (fun same => by cases same)
          (by rw [dropCommas, if_pos rfl, tail])
  · by_cases comma : c = .char ',' ∧ closesNext r = true
    · exact .dropped comma.1 comma.2 (by rw [comma.1, dropCommas_comma comma.2])
    · refine .kept (fun same => absurd same quote) (fun same => ?_) ?_
      · simpa [same] using comma
      · rw [dropCommas, if_neg quote, if_neg (by simpa using comma)]

theorem plain_blank {c : CodePoint} (h : c.isBlank = true) : plain c = true :=
  plain_of (by decide) h

/-- Where a closing bracket is next, it is also next in what is left. -/
theorem closesNext_split {s : Text} (h : closesNext s = true) :
    ∃ g c r, s = g ++ .char c :: r ∧ (∀ d ∈ g, d.isBlank = true) ∧ (c = ']' ∨ c = '\x7d') ∧
      dropCommas s = g ++ .char c :: dropCommas r := by
  have text := List.takeWhile_append_dropWhile (p := CodePoint.isBlank) (l := s)
  have blanks : ∀ d ∈ s.takeWhile CodePoint.isBlank, d.isBlank = true :=
    List.all_eq_true.mp List.all_takeWhile
  rw [closesNext] at h
  generalize s.takeWhile CodePoint.isBlank = g at text blanks
  split at h
  · cases h
  next d r next =>
    have bracket : ∃ c, d = .char c ∧ (c = ']' ∨ c = '\x7d') := by
      simp only [Bool.or_eq_true, decide_eq_true_eq] at h
      obtain rfl | rfl := h
      · exact ⟨_, rfl, .inr rfl⟩
      · exact ⟨_, rfl, .inl rfl⟩
    obtain ⟨c, rfl, bracket⟩ := bracket
    have plain_ : plain (.char c) = true := by obtain rfl | rfl := bracket <;> rfl
    rw [next] at text
    refine ⟨g, c, r, text.symm, blanks, bracket, ?_⟩
    rw [← text, keeps_plain dropCommas_keeps fun d among => plain_blank (blanks d among),
      dropCommas_keeps.plain _ _ plain_]

theorem closesNext_dropCommas {s : Text} (h : closesNext s = true) :
    closesNext (dropCommas s) = true := by
  obtain ⟨g, c, r, -, blanks, bracket, left⟩ := closesNext_split h
  have next : (g ++ .char c :: dropCommas r).dropWhile CodePoint.isBlank =
      .char c :: dropCommas r := by
    rw [List.dropWhile_append_of_pos blanks, List.dropWhile_cons_of_neg]
    obtain rfl | rfl := bracket <;> decide
  rw [left, closesNext, next]
  obtain rfl | rfl := bracket <;> rfl

/-- A backslash in front of a dropped comma does not matter: a blank or a bracket follows. -/
theorem closed_slash_dropCommas {s : Text} (next : closesNext s = true) :
    closed (.char '\\' :: dropCommas s) = closed (dropCommas s) := by
  obtain ⟨g, c, r, -, blanks, bracket, left⟩ := closesNext_split next
  rw [left]
  cases g with
  | nil =>
      rw [List.nil_append, closed_pair, closed_other]
      · obtain rfl | rfl := bracket <;> decide
      · obtain rfl | rfl := bracket <;> decide
  | cons d g =>
      have blank := blanks d List.mem_cons_self
      rw [List.cons_append, closed_pair, closed_other]
      · rintro rfl
        cases blank
      · rintro rfl
        cases blank

/-- A quote that is closed when the commas are dropped was closed before. -/
theorem dropCommas_closed {s : Text} (h : closed (dropCommas s) = true) : closed s = true := by
  -- A backslash takes two code points at once, so the induction is on the length.
  induction size : s.length using Nat.strong_induction_on generalizing s with
  | _ n ih =>
    subst size
    match s with
    | [] => rwa [dropCommas_keeps.nil] at h
    | c :: t =>
      have later : closed (dropCommas t) = true → closed t = true := fun h => ih _ (by simp) h rfl
      rcases dropping c t with ⟨rfl, tail, left⟩ | ⟨rfl, next, left⟩ | ⟨-, -, left⟩
      · rfl
      · rw [left] at h
        rw [closed_other (by decide) (by decide)]
        exact later h
      rw [left] at h
      by_cases quote : c = .char '"'
      · rw [quote, closed_quote]
      by_cases slash : c = .char '\\'
      · rw [slash] at h ⊢
        cases t with
        | nil => rwa [dropCommas_keeps.nil] at h
        | cons d t =>
            rw [closed_pair]
            rcases dropping d t with ⟨rfl, tail, -⟩ | ⟨rfl, next, left⟩ | ⟨-, -, left⟩
            · rw [closed, tail, Option.isSome_some]
            · rw [left, closed_slash_dropCommas next] at h
              exact ih _ (by simp only [List.length_cons]; omega) h rfl
            · rw [left, closed_pair] at h
              exact ih _ (by simp only [List.length_cons]; omega) h rfl
      · rw [closed_other quote slash] at h ⊢
        exact later h

/-! ## What was given -/

/-- Is there no comma at the beginning of the text that is dropped? -/
def Stays (u : Text) : Prop :=
  ∀ t, u = .char ',' :: t → closesNext t = false

theorem stays_of_left {u : Text} (h : closesNext (dropCommas u) = false) : Stays u := by
  rintro t rfl
  rcases dropping (.char ',') t with ⟨quote, -, -⟩ | ⟨-, next, left⟩ | ⟨-, comma, -⟩
  · cases quote
  · rw [left, closesNext_dropCommas next] at h
    cases h
  · exact comma rfl

/-- Where nothing is dropped, the first code point is the one that is left. -/
theorem stays_cons {u r : Text} {c : CodePoint} (stays : Stays u) (left : dropCommas u = c :: r)
    (quote : c ≠ .char '"') : ∃ t, u = c :: t ∧ dropCommas t = r := by
  cases u with
  | nil =>
      rw [dropCommas_keeps.nil] at left
      cases left
  | cons d t =>
      rcases dropping d t with ⟨rfl, -, text⟩ | ⟨rfl, next, -⟩ | ⟨-, -, text⟩
      · rw [text] at left
        exact absurd (List.cons.inj left).1.symm quote
      · rw [stays t rfl] at next
        cases next
      · rw [text] at left
        cases left
        exact ⟨t, rfl, rfl⟩

/-- Blanks that are left in front of no closing bracket were there. -/
theorem dropCommas_front {u g r : Text} (safe : led u = true) (left : dropCommas u = g ++ r)
    (blanks : ∀ c ∈ g, isBlank c = true) (next : closesNext r = false) :
    Splits dropCommas (· = g) (fun u' => led u' = true ∧ Stays u') u r := by
  induction g generalizing u with
  | nil =>
      subst left
      exact ⟨[], u, rfl, rfl, ⟨safe, stays_of_left next⟩, rfl⟩
  | cons c g ih =>
      have stays : Stays u := by
        refine stays_of_left ?_
        rw [left, closesNext, List.dropWhile_append_of_pos]
        · exact next
        · exact fun d among => (blank_solid (blanks d among)).1
      obtain ⟨blank, blanks⟩ := List.forall_mem_cons.mp blanks
      have quote : c ≠ .char '"' := by
        rintro rfl
        cases blank
      obtain ⟨t, rfl, later⟩ := stays_cons stays left quote
      obtain ⟨_, u', rfl, rfl, after⟩ := ih (led_other safe quote).2 later blanks
      exact ⟨_, u', rfl, rfl, after⟩

theorem led_append {g r : Text} (h : led (g ++ r) = true) (noQuote : ∀ c ∈ g, c ≠ .char '"') :
    led r = true := by
  induction g with
  | nil => exact h
  | cons c g ih =>
      obtain ⟨quote, noQuote⟩ := List.forall_mem_cons.mp noQuote
      exact ih (led_other h quote).2 noQuote

/-- After a dropped comma nothing but blanks comes before the bracket. -/
theorem one_comma {u g r : Text} {b : Char} (safe : led u = true)
    (left : dropCommas u = g ++ .char b :: r) (blanks : ∀ c ∈ g, isBlank c = true)
    (bracket : b = ']' ∨ b = '\x7d') (goes : ¬Stays u) :
    Splits dropCommas (· = .char ',' :: g) (fun u' => led u' = true ∧ Stays u') u
      (.char b :: r) := by
  obtain ⟨t, rfl, next⟩ : ∃ t, u = .char ',' :: t ∧ closesNext t = true := by
    simpa [Stays] using goes
  have solid_ {c : Char} (bracket : c = ']' ∨ c = '\x7d') : (CodePoint.char c).isBlank = false := by
    obtain rfl | rfl := bracket <;> rfl
  obtain ⟨g', c, r', rfl, blanks', bracket', text⟩ := closesNext_split next
  rw [dropCommas_comma next, text] at left
  obtain ⟨rfl, same⟩ := front_unique left blanks' (fun d among => (blank_solid (blanks d among)).1)
    (solid_ bracket') (solid_ bracket)
  cases same
  have noQuote : ∀ d ∈ g', d ≠ .char '"' := by
    rintro d among rfl
    cases blanks' _ among
  refine ⟨_, .char b :: r', rfl, rfl, ⟨led_append (led_other safe (by decide)).2 noQuote, ?_⟩, ?_⟩
  · rintro t ⟨⟩
    obtain same | same := bracket <;> cases same
  · exact dropCommas_keeps.plain _ _ (by obtain rfl | rfl := bracket <;> rfl)

/-- Blanks that are left in front of a closing bracket may have had one comma among them. -/
theorem dropCommas_closing {u g r : Text} (safe : led u = true) (left : dropCommas u = g ++ r)
    (blanks : ∀ c ∈ g, isBlank c = true) (closes : Closes r) :
    ∃ g', (g' = g ∨ ∃ g₁ g₂, g = g₁ ++ g₂ ∧ g' = g₁ ++ .char ',' :: g₂) ∧
      Splits dropCommas (· = g') (fun u' => led u' = true ∧ Stays u') u r := by
  obtain ⟨b, r, rfl, bracket⟩ := closes
  induction g generalizing u with
  | nil =>
      by_cases stays : Stays u
      · exact ⟨[], .inl rfl, [], u, rfl, rfl, ⟨safe, stays⟩, left⟩
      · exact ⟨_, .inr ⟨[], [], rfl, rfl⟩, one_comma safe left blanks bracket stays⟩
  | cons c g ih =>
      by_cases stays : Stays u
      · obtain ⟨blank, others⟩ := List.forall_mem_cons.mp blanks
        have quote : c ≠ .char '"' := by
          rintro rfl
          cases blank
        obtain ⟨t, rfl, later⟩ := stays_cons stays left quote
        obtain ⟨_, kind, g', u', rfl, rfl, after⟩ := ih (led_other safe quote).2 others later
        refine ⟨c :: g', ?_, _, u', rfl, rfl, after⟩
        obtain rfl | ⟨g₁, g₂, rfl, rfl⟩ := kind
        · exact .inl rfl
        · exact .inr ⟨c :: g₁, g₂, rfl, rfl⟩
      · exact ⟨_, .inr ⟨[], c :: g, rfl, rfl⟩, one_comma safe left blanks bracket stays⟩

theorem closesNext_ahead {r : Text} (h : Ahead r) : closesNext r = false := by
  obtain ⟨c, t, rfl, opens_ | rfl⟩ := h
  · exact closesNext_opens (m := Manner.plain) .nil ⟨c, [], rfl, opens_⟩ t
  · rfl

theorem closesNext_solid {c : CodePoint} (h : solid c = true) (r : Text) :
    closesNext (c :: r) = false := by
  simp [solid, marks, Text.ofString] at h
  simp [closesNext, List.dropWhile_cons_of_neg, h]

theorem dropCommas_solid {u w r : Text} (safe : led u = true) (stays : Stays u)
    (left : dropCommas u = w ++ r) (all : ∀ c ∈ w, solid c = true ∧ plain c = true) :
    Splits dropCommas (· = w) (fun u' => led u' = true) u r := by
  induction w generalizing u with
  | nil => exact ⟨[], u, rfl, rfl, safe, left⟩
  | cons c w ih =>
      obtain ⟨⟨-, plain_⟩, all⟩ := List.forall_mem_cons.mp all
      have quote : c ≠ .char '"' := by
        rintro rfl
        cases plain_
      obtain ⟨t, rfl, later⟩ := stays_cons stays left quote
      cases w with
      | nil => exact ⟨[c], t, rfl, rfl, (led_other safe quote).2, later⟩
      | cons d w =>
          have solid_ : solid d = true := (all d List.mem_cons_self).1
          have stays : Stays t := stays_of_left (by rw [later]; exact closesNext_solid solid_ _)
          obtain ⟨_, u', rfl, rfl, after⟩ := ih (led_other safe quote).2 stays later all
          exact ⟨_, u', rfl, rfl, after⟩

theorem dropCommas_string {u body r : Text} (safe : led u = true)
    (left : dropCommas u = between body ++ r) (h : StringBody body) :
    Splits dropCommas (· = between body) (fun u' => led u' = true) u r := by
  simp only [between, List.cons_append, List.append_assoc, List.nil_append] at left
  cases u with
  | nil =>
      rw [dropCommas_keeps.nil] at left
      cases left
  | cons c t =>
      rcases dropping c t with ⟨rfl, tail, text⟩ | ⟨rfl, next, text⟩ | ⟨quote, -, text⟩
      · rw [text] at left
        obtain ⟨whole, rest⟩ := string_front tail h (List.cons.inj left).2
        refine ⟨_, t.drop _, ?_, rfl, led_string tail safe, rest⟩
        rw [between, ← whole, List.cons_append, List.take_append_drop]
      · -- A comma is dropped in front of a bracket, but here a quote is left.
        have bracket := closesNext_dropCommas next
        rw [← text, left] at bracket
        cases bracket
      · rw [text] at left
        obtain ⟨rfl, rest⟩ := List.cons.inj left
        have ends : closed t = true := dropCommas_closed (by rw [rest]; exact closed_body h r)
        rw [closed, quote rfl] at ends
        cases ends

/-- Behind an opening bracket no comma was dropped. -/
theorem dropCommas_empty {c : CodePoint} {u g r : Text} (safe : led (c :: u) = true)
    (opening : c ∈ Text.ofString "[\x7b") (left : dropCommas u = g ++ r)
    (blanks : ∀ c ∈ g, isBlank c = true) (closes : Closes r) :
    Splits dropCommas (· = g) (fun u' => led u' = true ∧ Stays u') u r := by
  have quote : c ≠ .char '"' := by
    rintro rfl
    simp [Text.ofString] at opening
  obtain ⟨noComma, safe⟩ := led_other safe quote
  obtain ⟨g', kind, splits⟩ := dropCommas_closing safe left blanks closes
  rcases kind with rfl | ⟨g₁, g₂, rfl, rfl⟩
  · exact splits
  · obtain ⟨_, u', rfl, rfl, -⟩ := splits
    have comma := noComma opening
    rw [commaNext, List.append_assoc,
      List.dropWhile_append_of_pos (List.forall_mem_append.mp blanks).1] at comma
    cases comma

theorem stays_nil {u : Text} (stays : Stays u) (left : dropCommas u = []) : u = [] := by
  cases u with
  | nil => rfl
  | cons c t =>
      rcases dropping c t with ⟨-, -, text⟩ | ⟨rfl, next, -⟩ | ⟨-, -, text⟩
      · rw [text] at left
        cases left
      · rw [stays t rfl] at next
        cases next
      · rw [text] at left
        cases left

theorem dropCommas_ending {u : Text} (safe : led u = true)
    (blanks : ∀ c ∈ dropCommas u, isBlank c = true) : dropCommas u = u := by
  obtain ⟨_, u', text, rfl, ⟨-, stays⟩, nothing⟩ :=
    dropCommas_front safe (List.append_nil _).symm blanks rfl
  rw [stays_nil stays nothing, List.append_nil] at text
  exact text.symm

/-- A text of a tree that is left when commas are dropped is one of a text with some commas more. -/
theorem dropCommas_reflects :
    Reflects ⟨false, true⟩ Manner.plain dropCommas (fun u => led u = true) Stays where
  gap safe left gap ahead := by
    have blanks := gap_blanks rfl gap
    apply splits_mono (dropCommas_front safe left blanks (closesNext_ahead ahead))
    · rintro _ rfl
      exact gap_of_blanks blanks
    · exact fun _ after => after
  tail safe left tail closes := by
    have blanks := gap_blanks rfl (tail_plain tail)
    obtain ⟨g', kind, splits⟩ := dropCommas_closing safe left blanks closes
    apply splits_mono splits
    · rintro _ rfl
      rcases kind with rfl | ⟨g₁, g₂, rfl, rfl⟩
      · exact .gap (gap_of_blanks blanks)
      · obtain ⟨before, after⟩ := List.forall_mem_append.mp blanks
        exact .comma rfl (gap_of_blanks before) (gap_of_blanks after)
    · exact fun _ after => after
  empty safe opening left gap closes := by
    have blanks := gap_blanks rfl gap
    apply splits_mono (dropCommas_empty safe opening left blanks closes)
    · rintro _ rfl
      exact gap_of_blanks blanks
    · exact fun _ after => after
  ending safe ending := by
    have blanks := gap_blanks rfl (ending_plain ending)
    rw [← dropCommas_ending safe blanks]
    exact .gap (gap_of_blanks blanks)
  mark safe stays left mark := by
    have others : ∀ c ∈ marks, c ≠ .char '"' := by decide
    obtain ⟨t, rfl, later⟩ := stays_cons stays left (others _ mark)
    exact ⟨_, t, rfl, rfl, (led_other safe (others _ mark)).2, later⟩
  firm safe stays left firm_ := dropCommas_solid safe stays left (firm_chars firm_)
  null safe stays left h := by
    cases h with
    | null =>
        apply splits_mono (dropCommas_solid safe stays left (by decide))
        · rintro _ rfl
          exact .null
        · exact fun _ safe => safe
    | placeholder comments => cases comments
  string safe _ left h := dropCommas_string safe left h

end Variables

end ApprovedOps
