import ApprovedOps.Variables.Clean
import ApprovedOps.Proofs.Json.Tree

/-! # Cleaned variables stay as they are

Cleaned variables are JSON as it is written: there is nothing to drop in them, and they are read as
the value that they were written for. So cleaning them again gives the same text, and cleaning them
at another indentation gives the text that the submitted variables have at it.
-/

namespace ApprovedOps

namespace Variables

open Json Json.Reader

/-- Is there nothing to drop at the code point? -/
def plain (c : CodePoint) : Bool :=
  c ≠ .char '"' && c ≠ .char '#' && c ≠ .char '/' && c ≠ .char '$' && c ≠ .char ','

/-- A class of code points in which there is nothing to drop. -/
theorem plain_of {p : CodePoint → Bool}
    (none_ : ∀ m ∈ Text.ofString "\"#/$,", p m = false) {c : CodePoint} (h : p c = true) :
    plain c = true := by
  have others (m : CodePoint) (among : m ∈ Text.ofString "\"#/$,") : c ≠ m := by
    rintro rfl
    rw [none_ c among] at h
    cases h
  simp [plain, others (.char '"') (by decide), others (.char '#') (by decide),
    others (.char '/') (by decide), others (.char '$') (by decide), others (.char ',') (by decide)]

/-- Does a pass over a text keep JSON? -/
structure Keeps (f : Text → Text) : Prop where
  nil : f [] = []
  plain : ∀ c r, plain c = true → f (c :: r) = c :: f r
  between : ∀ body r, StringBody body → f (between body ++ r) = between body ++ f r
  comma : ∀ r, closesNext r = false → f (.char ',' :: r) = .char ',' :: f r

/-! ## The passes -/

theorem stringTail_plain {c : CodePoint} {s : Text} {n : Nat} (quote : c ≠ .char '"')
    (slash : c ≠ .char '\\') (tail : stringTail s = some n) :
    stringTail (c :: s) = some (n + 1) := by
  rw [stringTail.eq_def]
  split <;> simp_all

theorem stringTail_pair {d : CodePoint} {s : Text} {n : Nat} (tail : stringTail s = some n) :
    stringTail (.char '\\' :: d :: s) = some (n + 2) := by
  rw [stringTail, tail, Option.map_some]

theorem stringTail_body {body : Text} (h : StringBody body) (r : Text) :
    stringTail (body ++ .char '"' :: r) = some (body.length + 1) := by
  induction h with
  | nil => simp [stringTail]
  | plain quote slash printable tail ih => exact stringTail_plain quote slash ih
  | letter among tail ih => exact stringTail_pair ih
  | @numeric digits s four hex tail ih =>
      have digits_ : stringTail (digits ++ (s ++ .char '"' :: r)) =
          some (digits.length + (s.length + 1)) := by
        clear four
        induction digits with
        | nil => simpa using ih
        | cons d digits later =>
            have solid : d ≠ .char '"' ∧ d ≠ .char '\\' := by
              constructor <;>
              · rintro rfl
                cases hex _ List.mem_cons_self
            have tail := later fun d among => hex d (List.mem_cons_of_mem _ among)
            rw [List.cons_append, stringTail_plain solid.1 solid.2 tail, List.length_cons]
            congr 1
            omega
      rw [List.cons_append, List.cons_append, List.append_assoc, stringTail_pair digits_]
      simp only [List.length_cons, List.length_append]
      exact congrArg some (by omega)

/-- A string ends with its first quote that is not escaped, whatever comes after it. -/
theorem stringTail_split {s : Text} {n : Nat} (h : stringTail s = some n) :
    ∃ a r, s = a ++ r ∧ a.length = n ∧ ∀ x, stringTail (a ++ x) = some n := by
  fun_induction stringTail s generalizing n with
  | case1 | case4 => cases h
  | case2 r =>
      cases h
      exact ⟨[.char '"'], r, rfl, rfl, fun x => rfl⟩
  | case3 d r ih =>
      obtain ⟨k, found, rfl⟩ := Option.map_eq_some_iff.mp h
      obtain ⟨a, r', rfl, rfl, ends⟩ := ih found
      exact ⟨.char '\\' :: d :: a, r', rfl, rfl, fun x => stringTail_pair (ends x)⟩
  | case5 c r quote pair single ih =>
      obtain ⟨k, found, rfl⟩ := Option.map_eq_some_iff.mp h
      obtain ⟨a, r', rfl, rfl, ends⟩ := ih found
      have slash : c ≠ .char '\\' := by
        rintro rfl
        cases text : a ++ r' with
        | nil => exact single rfl text
        | cons d r => exact pair d r rfl text
      exact ⟨c :: a, r', rfl, rfl, fun x => stringTail_plain quote slash (ends x)⟩

/-- A string is passed over with its quotes. -/
theorem between_split {body : Text} (h : StringBody body) (r : Text) :
    ∃ tail n, between body ++ r = .char '"' :: tail ∧ stringTail tail = some n ∧
      .char '"' :: tail.take n = between body ∧ tail.drop n = r := by
  refine ⟨body ++ .char '"' :: r, body.length + 1, ?_, stringTail_body h r, ?_, ?_⟩
  · simp [between]
  · simp [between, List.take_append]
  · simp [List.drop_append]

theorem of_plain {c : CodePoint} (r : Text) (h : plain c = true ∨ c = .char ',') :
    Decoration.of c r = .plain := by
  have others : c ≠ .char '"' ∧ c ≠ .char '#' ∧ c ≠ .char '/' ∧ c ≠ .char '$' := by
    obtain plain_ | rfl := h
    · simp [plain] at plain_
      tauto
    · decide
  obtain ⟨quote, hash, slash, dollar⟩ := others
  rw [Decoration.of.eq_def, if_neg quote, if_neg hash, if_neg slash, if_neg dollar]

theorem dropComments_keeps : Keeps dropComments := by
  refine ⟨by rw [dropComments], ?_, ?_, ?_⟩
  · intro c r plain_
    rw [dropComments, of_plain r (.inl plain_)]
  · intro body r h
    obtain ⟨t, n, text, tail, whole, rest⟩ := between_split h r
    rw [text, dropComments, Decoration.of.eq_def, if_pos rfl, tail]
    dsimp only
    rw [whole, rest]
  · intro r _
    rw [dropComments, of_plain r (.inr rfl)]

theorem dropCommas_keeps : Keeps dropCommas := by
  refine ⟨by rw [dropCommas], ?_, ?_, ?_⟩
  · intro c r plain_
    simp [plain] at plain_
    rw [dropCommas, if_neg plain_.1.1.1.1, if_neg (by simp [plain_])]
  · intro body r h
    obtain ⟨t, n, text, tail, whole, rest⟩ := between_split h r
    rw [text, dropCommas, if_pos rfl, tail]
    dsimp only
    rw [whole, rest]
  · intro r open_
    rw [dropCommas, if_neg (by decide), if_neg (by simp [open_])]

/-! ## Numbers -/

theorem plain_digit {d : Char} (digit : d.isDigit = true) : plain (.char d) = true := by
  have others : d ≠ '"' ∧ d ≠ '#' ∧ d ≠ '/' ∧ d ≠ '$' ∧ d ≠ ',' := by
    refine ⟨?_, ?_, ?_, ?_, ?_⟩ <;>
    · rintro rfl
      cases digit
  simp [plain, others]

theorem plain_sign (negative : Bool) : ∀ c ∈ signText negative, plain c = true := by
  cases negative <;> decide

theorem plain_integer (i : Int) : ∀ c ∈ Text.ofInt i, plain c = true := by
  intro c among
  rw [ofInt_text] at among
  obtain sign | digits := List.mem_append.mp among
  · exact plain_sign _ c sign
  · obtain ⟨d, digit, rfl⟩ := List.mem_map.mp digits
    exact plain_digit ((toDigits_whole _).all d digit)

theorem exponent_plain (e : Int) : ∀ c ∈ Binary64.exponentChars e, plain (.char c) = true := by
  intro c among
  obtain rfl | among := List.mem_cons.mp among
  · rfl
  obtain rfl | digits := List.mem_cons.mp among
  · split <;> rfl
  · exact plain_digit ((exponentDigits_spec e).2.1 c digits)

theorem place_plain {ds : List Char} (all : ∀ d ∈ ds, d.isDigit = true) (point : Int) :
    ∀ c ∈ Binary64.place ds point, plain (.char c) = true := by
  have digits : ∀ d ∈ ds, plain (.char d) = true := fun d among => plain_digit (all d among)
  have zeros (n : Nat) : ∀ d ∈ List.replicate n '0', plain (.char d) = true := by
    intro d among
    rw [(List.mem_replicate.mp among).2]
    rfl
  have written := exponent_plain (point - 1)
  have dot : plain (.char '.') = true := rfl
  have zero : plain (.char '0') = true := rfl
  intro c among
  unfold Binary64.place at among
  split at among
  · split at among
    · cases among
    · obtain rfl | later := List.mem_cons.mp among
      · exact digits _ List.mem_cons_self
      · exact written c later
    · obtain front | later := List.mem_append.mp among
      · obtain rfl | front := List.mem_cons.mp front
        · exact digits _ List.mem_cons_self
        · obtain rfl | front := List.mem_cons.mp front
          · exact dot
          · exact digits c (List.mem_cons_of_mem _ front)
      · exact written c later
  split at among
  · obtain front | later := List.mem_append.mp among
    · obtain rfl | front := List.mem_cons.mp front
      · exact zero
      · obtain rfl | front := List.mem_cons.mp front
        · exact dot
        · exact zeros _ c front
    · exact digits c later
  split at among
  · obtain front | later := List.mem_append.mp among
    · obtain front | front := List.mem_append.mp front
      · exact digits c front
      · exact zeros _ c front
    · simp only [List.mem_cons, List.not_mem_nil, or_false] at later
      obtain rfl | rfl := later
      · exact dot
      · exact zero
  · obtain front | later := List.mem_append.mp among
    · exact digits c (List.mem_of_mem_take front)
    · obtain rfl | later := List.mem_cons.mp later
      · exact dot
      · exact digits c (List.mem_of_mem_drop later)

theorem pointed_digits (digits : Nat) (power : Int) :
    ∀ d ∈ (Binary64.pointed digits power).1, d.isDigit = true := by
  intro d among
  have inside : d ∈ (Nat.toDigits 10 digits).reverse :=
    (List.dropWhile_suffix _).subset (List.mem_reverse.mp among)
  exact (toDigits_whole digits).all d (List.mem_reverse.mp inside)

theorem plain_real (x : Binary64) : ∀ c ∈ x.render .json, plain c = true := by
  cases x with
  | nan => decide
  | infinite negative => cases negative <;> decide
  | finite negative m e =>
      intro c among
      obtain sign | magnitude := List.mem_append.mp among
      · exact plain_sign negative c sign
      · obtain ⟨d, digit, rfl⟩ := List.mem_map.mp magnitude
        split at digit
        · have three : (['0', '.', '0'].all fun d => plain (.char d)) = true := rfl
          exact List.all_eq_true.mp three d digit
        · generalize Shortest.decimal m e = shortest at digit
          obtain ⟨digits, power⟩ := shortest
          exact place_plain (pointed_digits digits power) _ d digit

/-! ## Written values -/

section

variable {f : Text → Text} (keeps : Keeps f)

include keeps

theorem keeps_plain {s : Text} (all : ∀ c ∈ s, plain c = true) (r : Text) :
    f (s ++ r) = s ++ f r := by
  induction s with
  | nil => rfl
  | cons c s ih =>
      rw [List.cons_append, keeps.plain c _ (all c List.mem_cons_self),
        ih fun c among => all c (List.mem_cons_of_mem _ among)]
      rfl

theorem keeps_quote (t r : Text) : f (quote t ++ r) = quote t ++ f r :=
  keeps.between _ r (body_escape t)

theorem keeps_newline (indent level : Nat) (r : Text) :
    f (newline indent level ++ r) = newline indent level ++ f r := by
  refine keeps_plain keeps (fun c among => ?_) r
  obtain rfl | blank := List.mem_cons.mp among
  · rfl
  · rw [(List.mem_replicate.mp blank).2]
    rfl

/-- A comma in front of an element or a member is kept. -/
theorem keeps_comma (indent level : Nat) {s : Text} (opened : ∃ c r, s = c :: r ∧ opens c = true) :
    f (.char ',' :: (newline indent level ++ s)) = .char ',' :: (newline indent level ++ f s) := by
  obtain ⟨c, r, rfl, opens⟩ := opened
  have blanks : ∀ c ∈ newline indent level, c.isBlank = true := by
    intro c among
    obtain rfl | blank := List.mem_cons.mp among
    · rfl
    · rw [(List.mem_replicate.mp blank).2]
      rfl
  have next : (newline indent level ++ c :: r).dropWhile CodePoint.isBlank = c :: r := by
    simp only [Reader.opens, Bool.and_eq_true, Bool.not_eq_true'] at opens
    rw [List.dropWhile_append_of_pos blanks, List.dropWhile_cons_of_neg (by simp [opens])]
  have open_ : closesNext (newline indent level ++ c :: r) = false := by
    simp [Reader.opens] at opens
    simp [closesNext, next, opens]
  rw [keeps.comma _ open_, keeps_newline keeps]

theorem keeps_items (indent level : Nat) {vs : List Json} (all : ∀ v ∈ vs, Readable v)
    (each : ∀ v ∈ vs, ∀ level r, f (v.renderAt indent level ++ r) = v.renderAt indent level ++ f r)
    (r : Text) : f (renderItems indent level vs ++ r) = renderItems indent level vs ++ f r := by
  induction vs with
  | nil => rfl
  | cons v vs ih =>
      obtain ⟨c, t, text, opens⟩ := render_opens (all v List.mem_cons_self) indent level
      have later := ih (fun v among => all v (List.mem_cons_of_mem _ among))
        (fun v among => each v (List.mem_cons_of_mem _ among))
      have comma := keeps_comma keeps indent level
        (s := v.renderAt indent level ++ (renderItems indent level vs ++ r))
        (by rw [text]; exact ⟨c, _, rfl, opens⟩)
      rw [each v List.mem_cons_self, later] at comma
      rw [renderItems]
      simpa using comma

theorem keeps_member {indent level : Nat} {key r : Text} {v : Json}
    (value : f (v.renderAt indent level ++ r) = v.renderAt indent level ++ f r) :
    f (quote key ++ (Text.ofString ": " ++ (v.renderAt indent level ++ r))) =
      quote key ++ (Text.ofString ": " ++ (v.renderAt indent level ++ f r)) := by
  have colon : ∀ c ∈ Text.ofString ": ", plain c = true := by decide
  rw [keeps_quote keeps, keeps_plain keeps colon, value]

theorem keeps_fields (indent level : Nat) {fields : List (Text × Json)}
    (each : ∀ g ∈ fields, ∀ level r,
      f (g.2.renderAt indent level ++ r) = g.2.renderAt indent level ++ f r)
    (r : Text) :
    f (renderFields indent level fields ++ r) = renderFields indent level fields ++ f r := by
  induction fields with
  | nil => rfl
  | cons g fields ih =>
      obtain ⟨key, v⟩ := g
      have later := ih fun g among => each g (List.mem_cons_of_mem _ among)
      have comma := keeps_comma keeps indent level
        (s := quote key ++ (Text.ofString ": " ++ (v.renderAt indent level ++
          (renderFields indent level fields ++ r)))) ⟨_, _, rfl, rfl⟩
      rw [keeps_member keeps (each (key, v) List.mem_cons_self level _), later] at comma
      rw [renderFields]
      simpa using comma

/-- A pass that keeps the pieces of written values keeps written values. -/
theorem keeps_render {v : Json} (readable : Readable v) (indent level : Nat) (r : Text) :
    f (v.renderAt indent level ++ r) = v.renderAt indent level ++ f r := by
  induction readable generalizing level r with
  | null =>
      rw [renderAt]
      exact keeps_plain keeps (by decide) r
  | bool b =>
      cases b
      · rw [renderAt]
        exact keeps_plain keeps (by decide) r
      · rw [renderAt]
        exact keeps_plain keeps (by decide) r
  | integer short =>
      rw [renderAt]
      exact keeps_plain keeps (plain_integer _) r
  | real proper =>
      rw [renderAt]
      exact keeps_plain keeps (plain_real _) r
  | string t =>
      rw [renderAt]
      exact keeps_quote keeps t r
  | @array items all ih =>
      cases items with
      | nil =>
          rw [renderAt]
          exact keeps_plain keeps (by decide) r
      | cons v vs =>
          have value := ih v List.mem_cons_self
          have items := keeps_items keeps indent (level + 1)
            (fun v among => all v (List.mem_cons_of_mem _ among))
            (fun v among => ih v (List.mem_cons_of_mem _ among))
          have opening (s : Text) : f (.char '[' :: s) = .char '[' :: f s := keeps.plain _ _ rfl
          have closing (s : Text) : f (.char ']' :: s) = .char ']' :: f s := keeps.plain _ _ rfl
          rw [renderAt]
          simp only [List.append_assoc, List.cons_append, List.nil_append, opening, closing,
            keeps_newline keeps, value, items]
  | @object fields distinct all ih =>
      cases fields with
      | nil =>
          rw [renderAt]
          exact keeps_plain keeps (by decide) r
      | cons g fields =>
          obtain ⟨key, v⟩ := g
          have value := ih (key, v) List.mem_cons_self
          have others := keeps_fields keeps indent (level + 1) fun g among =>
            ih g (List.mem_cons_of_mem _ among)
          have opening (s : Text) : f (.char '\x7b' :: s) = .char '\x7b' :: f s :=
            keeps.plain _ _ rfl
          have closing (s : Text) : f (.char '\x7d' :: s) = .char '\x7d' :: f s :=
            keeps.plain _ _ rfl
          rw [renderAt]
          simp only [List.append_assoc, List.cons_append, List.nil_append, opening, closing,
            keeps_newline keeps, keeps_member keeps (value _ _), others]

end

/-- There is nothing to drop in what is written for a value. -/
theorem strip_render {v : Json} (readable : Readable v) (indent : Nat) :
    strip (v.render indent) = v.render indent := by
  have kept {f : Text → Text} (keeps : Keeps f) : f (v.render indent) = v.render indent := by
    have whole := keeps_render keeps readable indent 0 []
    rwa [List.append_nil, keeps.nil, List.append_nil] at whole
  rw [strip, kept dropComments_keeps, kept dropCommas_keeps]

/-- What cleaning gives is written for a value that was read. -/
theorem clean_ok {indent : Nat} {t u : Text} (h : clean indent t = .ok u) :
    ∃ v, Json.read (strip t) = .ok v ∧ Readable v ∧ u = v.render indent := by
  obtain ⟨v, read_, written⟩ := except_bind_ok h
  cases written
  rw [read] at read_
  split at read_
  next v' ok =>
    cases read_
    exact ⟨v, ok, read_readable ok, rfl⟩
  next => cases read_
  next => cases read_

/-- What is written for a value is cleaned to the value at any other indentation. -/
theorem clean_reindent {v : Json} (readable : v.Readable) (indent target : Nat) :
    clean target (v.render indent) = .ok (v.render target) := by
  rw [clean, read]
  simp only [strip_render readable, read_render readable]
  rfl

theorem clean_render {v : Json} (readable : v.Readable) (indent : Nat) :
    clean indent (v.render indent) = .ok (v.render indent) :=
  clean_reindent readable indent indent

/-- Cleaning variables that are clean changes nothing. -/
theorem clean_fixed {indent : Nat} {t u : Text} (h : clean indent t = .ok u) :
    clean indent u = .ok u := by
  obtain ⟨v, -, readable, rfl⟩ := clean_ok h
  exact clean_render readable indent

/-- There is nothing to drop in cleaned variables, and to clean them at another indentation is to
    clean at it what they came from. An indentation below zero is none. -/
theorem clean_stable {t u : Text} {i : Int} (h : clean i.toNat t = .ok u) :
    strip u = u ∧ ∀ j : Int, ∃ w, clean j.toNat t = .ok w ∧ clean j.toNat u = .ok w := by
  obtain ⟨v, stripped, readable, rfl⟩ := clean_ok h
  refine ⟨strip_render readable _, fun j => ?_⟩
  have anew : clean j.toNat t = .ok (v.render j.toNat) := by
    rw [clean, read]
    simp only [stripped]
    rfl
  exact ⟨_, anew, clean_reindent readable _ _⟩

/-- A string that looks like a comment and like a last comma stays at any indentation. -/
theorem clean_stable_of_list :
    clean (-1 : Int).toNat "[\n  null,\n  \"//,]\"\n]" = .ok "[\nnull,\n\"//,]\"\n]" ∧
      strip "[\nnull,\n\"//,]\"\n]" = "[\nnull,\n\"//,]\"\n]" ∧
      ∃ w, clean (4 : Int).toNat "[\n  null,\n  \"//,]\"\n]" = .ok w ∧
        clean (4 : Int).toNat "[\nnull,\n\"//,]\"\n]" = .ok w := by
  let list : Json := .array [.null, .string "//,]"]
  have readable : list.Readable := .array (List.forall_mem_cons.mpr
    ⟨.null, List.forall_mem_singleton.mpr (.string _)⟩)
  have two : list.render 2 = "[\n  null,\n  \"//,]\"\n]" := by decide +kernel
  have zero : list.render (-1 : Int).toNat = "[\nnull,\n\"//,]\"\n]" := by decide +kernel
  have cleaned := clean_reindent readable 2 (-1 : Int).toNat
  rw [two, zero] at cleaned
  obtain ⟨bare, again⟩ := clean_stable cleaned
  exact ⟨cleaned, bare, again 4⟩

end Variables

end ApprovedOps
