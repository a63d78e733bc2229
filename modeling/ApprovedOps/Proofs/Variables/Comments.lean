import ApprovedOps.Proofs.Variables.Reflected

/-! # Comments inside tokens

A comment leaves nothing behind, so what stands before it comes to stand next to what stands after
it. Where no comment is inside a word or a number, a text of a tree is left only of a text that has
comments and placeholders besides.
-/

namespace ApprovedOps

namespace Variables

open Json Json.Reader

/-! ## Comments that stand apart -/

/-- Does the text begin with a comment? -/
def commented (s : Text) : Bool :=
  match s with
  | [] => false
  | c :: r =>
    match Decoration.of c r with
    | .comment _ => true
    | _ => false

/-- Does the text begin with comments after which a token goes on at once? -/
def bridged (s : Text) : Bool :=
  commented s && (dropComments s).head?.any solid

/-- Is no comment between two code points of a token? -/
def apart (s : Text) : Bool :=
  match s with
  | [] => true
  | c :: r =>
    match Decoration.of c r with
    | .string n | .comment n | .placeholder n => apart (r.drop n)
    | .plain => !(solid c && bridged r) && apart r
termination_by s.length
decreasing_by all_goals simp only [List.length_cons, List.length_drop]; omega

theorem apart_of_plain {c : CodePoint} (h : plain c = true ∨ c = .char ',') (r : Text) :
    apart (c :: r) = (!(solid c && bridged r) && apart r) := by
  rw [apart, of_plain r h]

theorem apart_plain {c : CodePoint} {r : Text} (plain_ : plain c = true ∨ c = .char ',')
    (h : apart (c :: r) = true) : (solid c = true → bridged r = false) ∧ apart r = true := by
  rw [apart_of_plain plain_] at h
  simpa [imp_iff_not_or] using h

/-! ## Decorations -/

theorem commentTail_split {s : Text} {n : Nat} (h : commentTail s = some n) :
    ∃ body r, s = body ++ .char '*' :: .char '/' :: r ∧ n = body.length + 2 ∧
      ¬Text.ofString "*/" <:+: body := by
  fun_induction commentTail s generalizing n with
  | case1 => cases h
  | case2 r =>
      cases h
      exact ⟨[], r, rfl, rfl, by simp [Text.ofString]⟩
  | case3 c r goesOn ih =>
      obtain ⟨k, found, rfl⟩ := Option.map_eq_some_iff.mp h
      obtain ⟨body, r', rfl, rfl, noEnd⟩ := ih found
      refine ⟨c :: body, r', rfl, rfl, fun inside => ?_⟩
      obtain begins | inside := List.infix_cons_iff.mp inside
      · obtain ⟨rest, text⟩ := begins
        obtain ⟨star, text⟩ := List.cons.inj text
        cases body with
        | nil => cases text
        | cons d body =>
            obtain ⟨slash, -⟩ := List.cons.inj text
            exact goesOn _ star.symm (by rw [← slash]; rfl)
      · exact noEnd inside

/-- What begins with a comment. -/
inductive Commented (c : CodePoint) (r rest : Text) : Prop where
  /-- Up to the end of its line, which may be the end of the text. -/
  | line {mark body} : mark ∈ lineMarks → c :: r = mark ++ (body ++ rest) → .char '\n' ∉ body →
      (rest = [] ∨ ∃ t, rest = .char '\n' :: t) → Commented c r rest
  | block {body} : ¬Text.ofString "*/" <:+: body →
      c :: r = .char '/' :: .char '*' :: (body ++ .char '*' :: .char '/' :: rest) →
      Commented c r rest

theorem lineTail_split (s : Text) : ∃ body rest, s = body ++ rest ∧ body.length = lineTail s ∧
    .char '\n' ∉ body ∧ (rest = [] ∨ ∃ t, rest = .char '\n' :: t) := by
  induction s with
  | nil => exact ⟨[], [], rfl, rfl, by simp, .inl rfl⟩
  | cons c s ih =>
      by_cases stop : c = .char '\n'
      · exact ⟨[], c :: s, rfl, by simp [lineTail, stop], by simp, .inr ⟨s, by rw [stop]⟩⟩
      · obtain ⟨body, rest, rfl, size, noBreak, stops⟩ := ih
        refine ⟨c :: body, rest, rfl, ?_, ?_, stops⟩
        · rw [lineTail, List.takeWhile_cons_of_pos (by simp [stop]), List.length_cons,
            List.length_cons, size, lineTail]
        · simp [noBreak, Ne.symm stop]

theorem of_string {c : CodePoint} {r : Text} {n : Nat} (h : Decoration.of c r = .string n) :
    c = .char '"' ∧ stringTail r = some n := by
  rw [Decoration.of.eq_def] at h
  split at h
  next quote =>
    split at h
    next tail =>
      cases h
      exact ⟨quote, tail⟩
    next => cases h
  repeat' split at h
  all_goals cases h

/-- A quote in which nothing begins is one that is not closed. -/
theorem of_open {r : Text} (h : Decoration.of (.char '"') r = .plain) : stringTail r = none := by
  rw [Decoration.of.eq_def, if_pos rfl] at h
  split at h
  next => cases h
  next none_ => exact none_

theorem of_comment {c : CodePoint} {r : Text} {n : Nat} (h : Decoration.of c r = .comment n) :
    Commented c r (r.drop n) := by
  rw [Decoration.of.eq_def] at h
  split at h
  next => split at h <;> cases h
  split at h
  next hash =>
    cases h
    subst hash
    obtain ⟨body, rest, rfl, size, noBreak, stops⟩ := lineTail_split r
    rw [← size, List.drop_left]
    exact @Commented.line _ _ _ (Text.ofString "#") _ (by decide) rfl noBreak stops
  split at h
  next slash =>
    subst slash
    split at h
    · cases h
    next d r' =>
      split at h
      next slash =>
        cases h
        subst slash
        obtain ⟨body, rest, rfl, size, noBreak, stops⟩ := lineTail_split r'
        rw [← size, Nat.add_comm, List.drop_succ_cons, List.drop_left]
        exact @Commented.line _ _ _ (Text.ofString "//") _ (by decide) rfl noBreak stops
      split at h
      next star =>
        subst star
        split at h
        next tail =>
          cases h
          obtain ⟨body, rest, rfl, rfl, noEnd⟩ := commentTail_split tail
          have parts : body ++ .char '*' :: .char '/' :: rest =
              (body ++ [.char '*', .char '/']) ++ rest := by simp
          rw [Nat.add_comm, List.drop_succ_cons, parts, List.drop_left' (by simp)]
          exact .block noEnd (by simp)
        next => cases h
      next => cases h
  next => repeat' split at h
          all_goals cases h

/-- What begins with a placeholder. -/
theorem of_placeholder {c : CodePoint} {r : Text} {n : Nat}
    (h : Decoration.of c r = .placeholder n) :
    c = .char '$' ∧ ∃ d name, r = d :: (name ++ r.drop n) ∧ d.isNameStart = true ∧
      ∀ e ∈ name, e.isNameContinue = true := by
  rw [Decoration.of.eq_def] at h
  split at h
  next => split at h <;> cases h
  split at h
  next => cases h
  split at h
  next => repeat' split at h
          all_goals cases h
  split at h
  next dollar =>
    split at h
    · cases h
    next d r' =>
      split at h
      next start =>
        cases h
        refine ⟨dollar, d, r'.takeWhile CodePoint.isNameContinue, ?_, start,
          List.all_eq_true.mp List.all_takeWhile⟩
        have rest := @List.drop_left _ (r'.takeWhile CodePoint.isNameContinue)
          (r'.dropWhile CodePoint.isNameContinue)
        rw [List.takeWhile_append_dropWhile] at rest
        rw [Nat.add_comm, List.drop_succ_cons, rest, List.takeWhile_append_dropWhile]
      next => cases h
  next => cases h

/-! ## Quotes -/

/-- A quote that is closed after a prefix is closed, unless the prefix ends with a backslash. -/
theorem closed_before {p x : Text} {d : CodePoint} (slash : d ≠ .char '\\')
    (h : closed x = true) : closed (p ++ d :: x) = true := by
  have next : closed (d :: x) = true := by
    by_cases quote : d = .char '"'
    · rw [quote, closed_quote]
    · rw [closed_other quote slash, h]
  induction size : p.length using Nat.strong_induction_on generalizing p with
  | _ n ih =>
    subst size
    match p with
    | [] => exact next
    | [e] =>
      by_cases quote : e = .char '"'
      · rw [quote, List.cons_append, closed_quote]
      by_cases slash : e = .char '\\'
      · rw [slash, List.cons_append, List.nil_append, closed_pair, h]
      · rw [List.cons_append, closed_other quote slash, List.nil_append, next]
    | e :: e' :: p =>
      by_cases quote : e = .char '"'
      · rw [quote, List.cons_append, closed_quote]
      by_cases slash : e = .char '\\'
      · rw [slash, List.cons_append, List.cons_append, closed_pair]
        exact ih _ (by simp only [List.length_cons]; omega) rfl
      · rw [List.cons_append, closed_other quote slash]
        exact ih _ (by simp) rfl

theorem closed_comment {c : CodePoint} {r rest : Text} (comment : Commented c r rest)
    (h : closed rest = true) (p : Text) : closed (p ++ c :: r) = true := by
  rcases comment with ⟨-, text, -, rfl | ⟨t, rfl⟩⟩ | ⟨-, text⟩
  · cases h
  · rw [closed_other (by decide) (by decide)] at h
    rw [text, ← List.append_assoc, ← List.append_assoc]
    exact closed_before (by decide) h
  · rename_i body
    have parts : p ++ c :: r = (p ++ .char '/' :: .char '*' :: (body ++ [.char '*'])) ++
        .char '/' :: rest := by
      rw [text]
      simp
    rw [parts]
    exact closed_before (by decide) h

theorem closed_name {d : CodePoint} {name rest : Text} (start : d.isNameStart = true)
    (all : ∀ e ∈ name, e.isNameContinue = true) (h : closed rest = true) (p : Text) :
    closed (p ++ d :: (name ++ rest)) = true := by
  have named : ∀ e ∈ name, e ≠ .char '\\' := by
    rintro e among rfl
    cases all _ among
  have first : d ≠ .char '\\' := by
    rintro rfl
    cases start
  obtain rfl | ⟨name, e, rfl⟩ := List.eq_nil_or_concat name
  · exact closed_before first h
  · have parts : p ++ d :: (name.concat e ++ rest) = (p ++ d :: name) ++ e :: rest := by simp
    rw [parts]
    exact closed_before (named e (by simp)) h

theorem closed_run {w : Text} (all : ∀ c ∈ w, c ≠ .char '"' ∧ c ≠ .char '\\') (r : Text) :
    closed (w ++ r) = closed r := by
  induction w with
  | nil => rfl
  | cons c w ih =>
      obtain ⟨⟨quote, slash⟩, all⟩ := List.forall_mem_cons.mp all
      rw [List.cons_append, closed_other quote slash, ih all]

/-- After a backslash it matters whether a comment is there: the code point behind it is escaped in
its place. No solid one is, so this does not close the quote. -/
theorem closed_escaped {t : Text} (ih : ∀ s, s.length < t.length → apart s = true →
    closed (dropComments s) = true → closed s = true) (safe : apart t = true)
    (bridge : bridged t = false) (h : closed (.char '\\' :: dropComments t) = true) :
    closed (.char '\\' :: t) = true := by
  cases t with
  | nil => rwa [dropComments_keeps.nil] at h
  | cons d t =>
      have shorter (n : Nat) : (t.drop n).length < (d :: t).length := by
        simp only [List.length_drop, List.length_cons]
        omega
      cases kind : Decoration.of d t with
      | string n => rw [closed_pair, closed, (of_string kind).2, Option.isSome_some]
      | comment n =>
          rw [apart, kind] at safe
          rw [bridged, commented, kind, Bool.true_and] at bridge
          refine closed_comment (of_comment kind) (ih _ (shorter n) safe ?_) [.char '\\']
          rw [dropComments, kind] at h bridge
          dsimp only at h bridge
          cases text : dropComments (t.drop n) with
          | nil => rwa [text] at h
          | cons e u =>
              rw [text] at h bridge
              rw [closed_pair] at h
              rwa [closed_other]
              · rintro rfl
                cases bridge
              · rintro rfl
                cases bridge
      | placeholder n =>
          rw [dropComments, kind] at h
          rw [apart, kind] at safe
          obtain ⟨rfl, e, name, text, start, all⟩ := of_placeholder kind
          have kept : closed (dropComments (t.drop n)) = true := by
            change closed (.char '\\' :: .char 'n' :: (Text.ofString "ull" ++ _)) = true at h
            rwa [closed_pair, closed_run (by decide)] at h
          rw [text]
          exact closed_name start all (ih _ (shorter n) safe kept) [.char '\\', .char '$']
      | plain =>
          rw [dropComments, kind] at h
          rw [apart, kind, Bool.and_eq_true] at safe
          rw [closed_pair] at h ⊢
          exact ih _ (by simp) safe.2 h

/-- A quote that is closed when the comments are dropped was closed before, if they stand apart. -/
theorem dropComments_closed {s : Text} (safe : apart s = true)
    (h : closed (dropComments s) = true) : closed s = true := by
  -- Decorations take several code points at once, so the induction is on the length.
  induction size : s.length using Nat.strong_induction_on generalizing s with
  | _ n ih =>
    subst size
    match s with
    | [] => rwa [dropComments_keeps.nil] at h
    | c :: t =>
      have shorter (n : Nat) : (t.drop n).length < (c :: t).length := by
        simp only [List.length_drop, List.length_cons]
        omega
      cases kind : Decoration.of c t with
      | string n => rw [(of_string kind).1, closed_quote]
      | comment n =>
          rw [dropComments, kind] at h
          rw [apart, kind] at safe
          exact closed_comment (of_comment kind) (ih _ (shorter n) safe h rfl) []
      | placeholder n =>
          rw [dropComments, kind] at h
          rw [apart, kind] at safe
          dsimp only at h
          rw [closed_run (by decide)] at h
          obtain ⟨rfl, d, name, text, start, all⟩ := of_placeholder kind
          rw [text]
          exact closed_name start all (ih _ (shorter n) safe h rfl) [.char '$']
      | plain =>
          rw [dropComments, kind] at h
          rw [apart, kind] at safe
          simp only [Bool.and_eq_true, Bool.not_eq_true'] at safe
          obtain ⟨bridge, safe⟩ := safe
          by_cases quote : c = .char '"'
          · rw [quote, closed_quote]
          by_cases slash : c = .char '\\'
          · rw [slash] at h bridge ⊢
            exact closed_escaped (fun s size safe h => ih _ (size.trans (by simp)) safe h rfl) safe
              bridge h
          · rw [closed_other quote slash] at h ⊢
            exact ih _ (by simp) safe h rfl

/-! ## What was given -/

/-- What comes before the first token of a text. -/
inductive Leading (commas : Bool) (u : Text) : Prop where
  /-- There is no token. -/
  | all : Ending ⟨true, commas⟩ u → (∀ c ∈ dropComments u, isBlank c = true) → Leading commas u
  | front {g b u' c r} : u = g ++ u' → Gap ⟨true, commas⟩ g → commented u' = false →
      (apart u = true → apart u' = true) → (∀ c ∈ b, isBlank c = true) →
      dropComments u = b ++ dropComments u' → dropComments u' = c :: r → isBlank c = false →
      Leading commas u

theorem leading_append {commas : Bool} {g b u w : Text} (text : w = g ++ u)
    (h : Leading commas u) (gap : Gap ⟨true, commas⟩ g) (blanks : ∀ c ∈ b, isBlank c = true)
    (drops : dropComments w = b ++ dropComments u) (safe : apart w = true → apart u = true) :
    Leading commas w := by
  cases h with
  | all ending blanks' =>
      refine .all ?_ ?_
      · rw [text]
        cases ending with
        | gap gap' => exact .gap (gap_append gap gap')
        | line comments gap' among noBreak =>
            rw [← List.append_assoc]
            exact .line comments (gap_append gap gap') among noBreak
      · rw [drops]
        exact List.forall_mem_append.mpr ⟨blanks, blanks'⟩
  | front text' gap' front safe' blanks' drops' head solid_ =>
      refine .front (by rw [text, text', List.append_assoc]) (gap_append gap gap') front
        (fun apart_ => safe' (safe apart_)) (List.forall_mem_append.mpr ⟨blanks, blanks'⟩) ?_ head
        solid_
      rw [drops, drops', List.append_assoc]

theorem leading_comment {commas : Bool} {c : CodePoint} {t rest : Text}
    (comment : Commented c t rest) (drops : dropComments (c :: t) = dropComments rest)
    (safe : apart (c :: t) = true → apart rest = true)
    (later : ∀ u, u.length ≤ rest.length → Leading commas u) : Leading commas (c :: t) := by
  rcases comment with @⟨mark, body, among, text, noBreak, rfl | ⟨t', rfl⟩⟩ | @⟨body, noEnd, text⟩
  · rw [List.append_nil] at text
    rw [dropComments_keeps.nil] at drops
    apply Leading.all
    · rw [text]
      exact .line (g := []) rfl .nil among noBreak
    · simp [drops]
  · have parts : c :: t = (mark ++ (body ++ [.char '\n'])) ++ t' := by simpa using text
    have blanks : ∀ c ∈ ([.char '\n'] : Text), isBlank c = true := by simp [isBlank]
    apply leading_append parts (later t' (by simp)) (.line rfl among noBreak .nil) blanks
    · rw [drops, dropComments_keeps.plain _ _ rfl]
      rfl
    · exact fun apart_ => (apart_plain (.inl rfl) (safe apart_)).2
  · have parts : c :: t = (.char '/' :: .char '*' :: (body ++ [.char '*', .char '/'])) ++ rest := by
      simpa using text
    exact leading_append (b := []) parts (later rest (Nat.le_refl _)) (.block rfl noEnd .nil)
      (by simp) drops safe

theorem leading (commas : Bool) (u : Text) : Leading commas u := by
  induction size : u.length using Nat.strong_induction_on generalizing u with
  | _ n ih =>
    subst size
    cases u with
    | nil => exact .all (.gap .nil) (by simp [dropComments_keeps.nil])
    | cons c t =>
        have here {r : Text} {d : CodePoint} (front : commented (c :: t) = false)
            (head : dropComments (c :: t) = d :: r) (solid_ : isBlank d = false) :
            Leading commas (c :: t) :=
          .front (g := []) (b := []) rfl .nil front id (by simp) rfl head solid_
        cases kind : Decoration.of c t with
        | string n =>
            have head : dropComments (c :: t) = c :: (t.take n ++ dropComments (t.drop n)) := by
              rw [dropComments, kind]
              rfl
            exact here (by rw [commented, kind]) head (by rw [(of_string kind).1]; rfl)
        | comment n =>
            apply leading_comment (of_comment kind)
            · rw [dropComments, kind]
            · intro safe
              rwa [apart, kind] at safe
            · intro u shorter
              refine ih _ ?_ u rfl
              simp only [List.length_drop, List.length_cons] at shorter ⊢
              omega
        | placeholder n =>
            have head : dropComments (c :: t) =
                .char 'n' :: (Text.ofString "ull" ++ dropComments (t.drop n)) := by
              rw [dropComments, kind]
              rfl
            exact here (by rw [commented, kind]) head rfl
        | plain =>
            have head : dropComments (c :: t) = c :: dropComments t := by rw [dropComments, kind]
            by_cases blank : isBlank c = true
            · have later := ih _ (by simp) t rfl
              apply leading_append (w := c :: t) (g := [c]) (b := [c]) rfl later (.blank blank .nil)
              · simpa using blank
              · exact head
              · intro safe
                rw [apart, kind, Bool.and_eq_true] at safe
                exact safe.2
            · exact here (by rw [commented, kind]) head (by simpa using blank)

theorem dropComments_front {commas : Bool} {u g r : Text} (safe : apart u = true)
    (left : dropComments u = g ++ r) (gap : Gap ⟨false, commas⟩ g)
    (front : ∃ c t, r = c :: t ∧ isBlank c = false) :
    Splits dropComments (Gap ⟨true, commas⟩) (fun u' => apart u' = true ∧ commented u' = false)
      u r := by
  obtain ⟨c, t, rfl, solid_⟩ := front
  have blanks := gap_blanks rfl gap
  cases leading commas u with
  | all ending blanks' =>
      have blank := blanks' c (by simp [left])
      rw [solid_] at blank
      cases blank
  | front text gap' front safe' blanks' drops head solid' =>
      rw [head, left] at drops
      obtain ⟨-, same⟩ := front_unique drops blanks blanks' solid_ solid'
      exact ⟨_, _, text, gap', ⟨safe' safe, front⟩, head.trans same.symm⟩

/-- What a code point that is left comes from, where no comment begins. -/
theorem dropComments_cons {u r : Text} {c : CodePoint} (safe : apart u = true)
    (front : commented u = false) (left : dropComments u = c :: r) (quote : c ≠ .char '"') :
    (∃ t, u = c :: t ∧ dropComments t = r ∧ apart t = true ∧
      (solid c = true → bridged t = false)) ∨
    (∃ d name t, u = .char '$' :: d :: (name ++ t) ∧ d.isNameStart = true ∧
      (∀ e ∈ name, e.isNameContinue = true) ∧ apart t = true ∧
      c :: r = Text.ofString "null" ++ dropComments t) := by
  cases u with
  | nil =>
      rw [dropComments_keeps.nil] at left
      cases left
  | cons d t =>
      cases kind : Decoration.of d t with
      | string n =>
          rw [dropComments, kind] at left
          obtain ⟨rfl, -⟩ := List.cons.inj left
          exact absurd (of_string kind).1 quote
      | comment n =>
          rw [commented, kind] at front
          cases front
      | placeholder n =>
          rw [dropComments, kind] at left
          rw [apart, kind] at safe
          obtain ⟨rfl, e, name, text, start, all⟩ := of_placeholder kind
          exact .inr ⟨e, name, t.drop n, by rw [← text], start, all, safe, left.symm⟩
      | plain =>
          rw [dropComments, kind] at left
          rw [apart, kind] at safe
          obtain ⟨rfl, rest⟩ := List.cons.inj left
          simp only [Bool.and_eq_true, Bool.not_eq_true', Bool.and_eq_false_imp] at safe
          exact .inl ⟨t, rfl, rest, safe.2, safe.1⟩

theorem dropComments_firm {u w r : Text} (safe : apart u = true) (front : commented u = false)
    (left : dropComments u = w ++ r) (h : firm w = true) :
    Splits dropComments (· = w) (fun u' => apart u' = true) u r := by
  induction w generalizing u with
  | nil => exact ⟨[], u, rfl, rfl, safe, left⟩
  | cons c w ih =>
      have chars := firm_chars h
      simp only [firm, Bool.and_eq_true] at h
      have quote : c ≠ .char '"' := by
        rintro rfl
        cases h.1.1.2
      rcases dropComments_cons safe front left quote with
        ⟨t, rfl, rest, safe, bridge⟩ | ⟨d, name, t, -, -, -, -, null⟩
      · have next : commented t = false ∨ w = [] := by
          cases w with
          | nil => exact .inr rfl
          | cons e w =>
              have solid_ := (chars e (by simp)).1
              have bridge := bridge h.1.1.1
              rw [bridged, rest] at bridge
              simpa [solid_] using bridge
        obtain front | rfl := next
        · obtain ⟨_, u', rfl, rfl, after⟩ := ih safe front rest h.2
          exact ⟨_, u', rfl, rfl, after⟩
        · exact ⟨[c], t, rfl, rfl, safe, rest⟩
      · -- A placeholder leaves a beginning of `null`.
        obtain ⟨rfl, rest⟩ := List.cons.inj null
        have other := h.1.2
        cases w with
        | nil => cases other
        | cons e w =>
            obtain ⟨rfl, -⟩ := List.cons.inj rest
            cases other

theorem dropComments_null {commas : Bool} {u r : Text} (safe : apart u = true)
    (front : commented u = false) (left : dropComments u = Text.ofString "null" ++ r) :
    Splits dropComments (Laid ⟨true, commas⟩ .null) (fun u' => apart u' = true) u r := by
  change dropComments u = .char 'n' :: (Text.ofString "ull" ++ r) at left
  rcases dropComments_cons safe front left (by decide) with
    ⟨t, rfl, rest, safe, bridge⟩ | ⟨d, name, t, rfl, start, all, safe, null⟩
  · have next : commented t = false := by
      have bridge := bridge rfl
      rw [bridged, rest, Bool.and_eq_false_imp] at bridge
      exact Bool.eq_false_iff.mpr fun begins => nomatch bridge begins
    obtain ⟨_, u', rfl, rfl, after⟩ := dropComments_firm (w := "ull") safe next rest rfl
    exact ⟨_, u', rfl, .null, after⟩
  · have same : Text.ofString "null" ++ r = Text.ofString "null" ++ dropComments t := null
    exact ⟨_, t, by simp, .placeholder rfl start all, safe, (List.append_cancel_left same).symm⟩

theorem dropComments_string {u body r : Text} (safe : apart u = true)
    (front : commented u = false) (left : dropComments u = between body ++ r)
    (h : StringBody body) :
    Splits dropComments (· = between body) (fun u' => apart u' = true) u r := by
  simp only [between, List.cons_append, List.append_assoc, List.nil_append] at left
  cases u with
  | nil =>
      rw [dropComments_keeps.nil] at left
      cases left
  | cons c t =>
      cases kind : Decoration.of c t with
      | string n =>
          rw [dropComments, kind] at left
          rw [apart, kind] at safe
          obtain ⟨rfl, tail⟩ := of_string kind
          obtain ⟨whole, rest⟩ := string_front tail h (List.cons.inj left).2
          refine ⟨_, t.drop n, ?_, rfl, safe, rest⟩
          rw [between, ← whole, List.cons_append, List.take_append_drop]
      | comment n =>
          rw [commented, kind] at front
          cases front
      | placeholder n =>
          rw [dropComments, kind] at left
          cases (List.cons.inj left).1
      | plain =>
          rw [dropComments, kind] at left
          rw [apart, kind, Bool.and_eq_true] at safe
          obtain ⟨rfl, rest⟩ := List.cons.inj left
          have ends : closed t = true :=
            dropComments_closed safe.2 (by rw [rest]; exact closed_body h r)
          rw [closed, of_open kind] at ends
          cases ends

theorem dropComments_token {u r : Text} {c : CodePoint} (safe : apart u = true)
    (front : commented u = false) (left : dropComments u = c :: r) (mark : c ∈ marks) :
    Splits dropComments (· = [c]) (fun u' => apart u' = true) u r := by
  have others : ∀ c ∈ marks, c ≠ .char '"' ∧ c ≠ .char 'n' := by decide
  rcases dropComments_cons safe front left (others c mark).1 with
    ⟨t, rfl, rest, safe, -⟩ | ⟨d, name, t, -, -, -, -, null⟩
  · exact ⟨[c], t, rfl, rfl, safe, rest⟩
  · exact absurd (List.cons.inj null).1 (others c mark).2

theorem dropComments_tail {commas : Bool} {u t r : Text} (safe : apart u = true)
    (left : dropComments u = t ++ r) (tail : Tail ⟨false, commas⟩ t) (closes : Closes r) :
    Splits dropComments (Tail ⟨true, commas⟩) (fun u' => apart u' = true ∧ commented u' = false)
      u r := by
  cases tail with
  | gap gap =>
      exact splits_mono (dropComments_front safe left gap (closes_front closes))
        (fun g gap => .gap gap) fun u' after => after
  | comma commas gap gap' =>
      simp only [List.append_assoc, List.cons_append] at left
      obtain ⟨g, u₁, rfl, given, ⟨safe, front⟩, left⟩ :=
        dropComments_front safe left gap ⟨_, _, rfl, rfl⟩
      obtain ⟨_, u₂, rfl, rfl, safe, left⟩ := dropComments_token safe front left (by decide)
      obtain ⟨g', u₃, rfl, given', after, left⟩ :=
        dropComments_front safe left gap' (closes_front closes)
      exact ⟨g ++ .char ',' :: g', u₃, by simp, .comma commas given given', after, left⟩

theorem dropComments_ending {commas : Bool} {u : Text}
    (ending : Ending ⟨false, commas⟩ (dropComments u)) : Ending ⟨true, commas⟩ u := by
  cases leading commas u with
  | all given blanks => exact given
  | @front g b u' c r text given front safe' blanks drops head solid_ =>
      have among : c ∈ dropComments u := by simp [drops, head]
      generalize dropComments u = e at ending among
      cases ending with
      | gap gap =>
          rw [gap_blanks rfl gap c among] at solid_
          cases solid_
      | line comments => cases comments

/-- A text of a tree that is left when comments are dropped is one of a text with comments and
placeholders besides. -/
theorem dropComments_reflects (commas : Bool) :
    Reflects ⟨true, commas⟩ ⟨false, commas⟩ dropComments (fun u => apart u = true)
      (fun u => commented u = false) where
  gap safe left gap ahead := dropComments_front safe left gap (ahead_front ahead)
  tail safe left tail closes := dropComments_tail safe left tail closes
  empty safe opening left gap closes := by
    have plain_ : ∀ c ∈ Text.ofString "[\x7b", plain c = true := by decide
    have safe := (apart_plain (.inl (plain_ _ opening)) safe).2
    exact dropComments_front safe left gap (closes_front closes)
  ending _ ending := dropComments_ending ending
  mark safe front left mark := dropComments_token safe front left mark
  firm safe front left firm_ := dropComments_firm safe front left firm_
  null safe front left h := by
    cases h with
    | null => exact dropComments_null safe front left
    | placeholder comments => cases comments
  string safe front left h := dropComments_string safe front left h

end Variables

end ApprovedOps
