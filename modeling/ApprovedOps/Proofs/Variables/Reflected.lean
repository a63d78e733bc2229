import ApprovedOps.Proofs.Variables.Accepted

/-! # Texts that a pass was given

What a pass leaves can be a text of a tree though what it was given is none: dropping may bring two
halves of a token together. If the text is one in which nothing comes together, every piece of what
is left is one of what was given, and the text is one of an equal tree.
-/

namespace ApprovedOps

namespace Variables

open Json Json.Reader

/-! ## Pieces of a text -/

/-- The text begins with a piece after which the pass leaves the given rest. -/
def Splits (f : Text → Text) (Piece Rest : Text → Prop) (u r : Text) : Prop :=
  ∃ s u', u = s ++ u' ∧ Piece s ∧ Rest u' ∧ f u' = r

theorem splits_mono {f : Text → Text} {Piece Piece' Rest Rest' : Text → Prop} {u r : Text}
    (h : Splits f Piece Rest u r) (piece : ∀ s, Piece s → Piece' s) (rest : ∀ u, Rest u → Rest' u) :
    Splits f Piece' Rest' u r := by
  obtain ⟨s, u', text, here, later, left⟩ := h
  exact ⟨s, u', text, piece s here, rest u' later, left⟩

/-- A text is cut in one way in front of the first code point without a property. -/
theorem front_unique {p : CodePoint → Bool} {g g' r r' : Text} {c c' : CodePoint}
    (h : g ++ c :: r = g' ++ c' :: r') (all : ∀ d ∈ g, p d = true) (all' : ∀ d ∈ g', p d = true)
    (first : p c = false) (first' : p c' = false) : g = g' ∧ c :: r = c' :: r' := by
  have front := congrArg (List.takeWhile p) h
  have rest := congrArg (List.dropWhile p) h
  rw [List.takeWhile_append_of_pos all, List.takeWhile_append_of_pos all',
    List.takeWhile_cons_of_neg (by simp [first]), List.takeWhile_cons_of_neg (by simp [first']),
    List.append_nil, List.append_nil] at front
  rw [List.dropWhile_append_of_pos all, List.dropWhile_append_of_pos all',
    List.dropWhile_cons_of_neg (by simp [first]),
    List.dropWhile_cons_of_neg (by simp [first'])] at rest
  exact ⟨front, rest⟩

/-- Does the text begin with a token that closes nothing? -/
def Ahead (r : Text) : Prop :=
  ∃ c t, r = c :: t ∧ (opens c = true ∨ c = .char ',')

theorem ahead_opens {s : Text} (h : Opens s) (r : Text) : Ahead (s ++ r) := by
  obtain ⟨c, t, rfl, opens_⟩ := h
  exact ⟨c, t ++ r, rfl, .inl opens_⟩

theorem closes_front {r : Text} (h : Closes r) : ∃ c t, r = c :: t ∧ isBlank c = false := by
  obtain ⟨c, t, rfl, rfl | rfl⟩ := h
  · exact ⟨_, t, rfl, rfl⟩
  · exact ⟨_, t, rfl, rfl⟩

theorem ahead_front {r : Text} (h : Ahead r) : ∃ c t, r = c :: t ∧ isBlank c = false := by
  obtain ⟨c, t, rfl, opens_ | rfl⟩ := h
  · exact ⟨c, t, rfl, isBlank_of_opens opens_⟩
  · exact ⟨_, t, rfl, rfl⟩

/-- The tokens of one code point. -/
def marks : Text :=
  "[]\x7b\x7d,:"

/-- Can the code point stand in a token next to others? -/
def solid (c : CodePoint) : Bool :=
  !c.isBlank && c ∉ marks

/-- Can no pass have put a part of the text in place of something else? -/
def firm : Text → Bool
  | [] => true
  | c :: w => solid c && plain c && (c ≠ .char 'n' || w.head?.any (· ≠ .char 'u')) && firm w

/-- Does a pass leave the pieces of JSON as they were, where the text is safe? What it leaves in
front is what a text begins with if the pass drops nothing there. -/
structure Reflects (m m' : Manner) (f : Text → Text) (Safe Front : Text → Prop) : Prop where
  gap : ∀ {u g r}, Safe u → f u = g ++ r → Gap m' g → Ahead r →
    Splits f (Gap m) (fun u' => Safe u' ∧ Front u') u r
  tail : ∀ {u t r}, Safe u → f u = t ++ r → Tail m' t → Closes r →
    Splits f (Tail m) (fun u' => Safe u' ∧ Front u') u r
  /-- Between two brackets there may be less than after an element. -/
  empty : ∀ {c u g r}, Safe (c :: u) → c ∈ Text.ofString "[\x7b" → f u = g ++ r → Gap m' g →
    Closes r → Splits f (Gap m) (fun u' => Safe u' ∧ Front u') u r
  ending : ∀ {u}, Safe u → Ending m' (f u) → Ending m u
  mark : ∀ {u c r}, Safe u → Front u → f u = c :: r → c ∈ marks → Splits f (· = [c]) Safe u r
  firm : ∀ {u w r}, Safe u → Front u → f u = w ++ r → firm w = true → Splits f (· = w) Safe u r
  null : ∀ {u s r}, Safe u → Front u → f u = s ++ r → Laid m' .null s →
    Splits f (Laid m .null) Safe u r
  string : ∀ {u body r}, Safe u → Front u → f u = between body ++ r → StringBody body →
    Splits f (· = between body) Safe u r

/-! ## Strings that end -/

/-- Does a string that begins in front of the text end in it? -/
def closed (s : Text) : Bool :=
  (stringTail s).isSome

theorem closed_quote (r : Text) : closed (.char '"' :: r) = true := rfl

theorem closed_pair (d : CodePoint) (r : Text) :
    closed (.char '\\' :: d :: r) = closed r := by
  simp [closed, stringTail]

theorem closed_other {c : CodePoint} (quote : c ≠ .char '"') (slash : c ≠ .char '\\') (r : Text) :
    closed (c :: r) = closed r := by
  rw [closed, stringTail.eq_def]
  split <;> simp_all [closed]

theorem closed_body {body : Text} (h : StringBody body) (r : Text) :
    closed (body ++ .char '"' :: r) = true := by
  rw [closed, stringTail_body h, Option.isSome_some]

/-- What a pass takes for a string is the string that the text begins with. -/
theorem string_front {t x body r : Text} {n : Nat} (tail : stringTail t = some n)
    (h : StringBody body) (text : t.take n ++ x = body ++ .char '"' :: r) :
    t.take n = body ++ [.char '"'] ∧ x = r := by
  obtain ⟨a, rest, rfl, rfl, ends⟩ := stringTail_split tail
  rw [List.take_left] at text ⊢
  have size : a.length = body.length + 1 :=
    Option.some.inj ((ends x).symm.trans ((congrArg stringTail text).trans (stringTail_body h r)))
  have parts : a ++ x = (body ++ [.char '"']) ++ r := by simpa using text
  exact List.append_inj parts (by simpa using size)

/-! ## Trees of the same value -/

theorem values_same {vs ws : List Tree} (h : List.Forall₂ (fun v w => v.value = w.value) vs ws) :
    Tree.values vs = Tree.values ws := by
  induction h with
  | nil => rfl
  | cons same rest ih => rw [Tree.values, Tree.values, same, ih]

theorem fields_same {ms ns : List (Text × Tree)}
    (h : List.Forall₂ (fun m n => m.1 = n.1 ∧ m.2.value = n.2.value) ms ns)
    (before : Dictionary Json) : Tree.fields before ms = Tree.fields before ns := by
  induction h generalizing before with
  | nil => rfl
  | @cons m n ms ns same rest ih =>
      obtain ⟨name, v⟩ := m
      obtain ⟨name', w⟩ := n
      obtain ⟨rfl, value⟩ := same
      simp only [Tree.fields, value, ih]

/-! ## Words and numbers -/

theorem firm_chars {w : Text} (h : firm w = true) :
    ∀ c ∈ w, solid c = true ∧ plain c = true := by
  induction w with
  | nil => simp
  | cons c w ih =>
      simp only [firm, Bool.and_eq_true] at h
      exact List.forall_mem_cons.mpr ⟨h.1.1, ih h.2⟩

theorem firm_all {w : Text} (all : ∀ c ∈ w, solid c = true ∧ plain c = true ∧ c ≠ .char 'n') :
    firm w = true := by
  induction w with
  | nil => rfl
  | cons c w ih =>
      obtain ⟨⟨solid_, plain_, noN⟩, all⟩ := List.forall_mem_cons.mp all
      simp [firm, solid_, plain_, noN, ih all]

theorem solid_digit {d : Char} (digit : d.isDigit = true) : solid (.char d) = true := by
  have blank : (CodePoint.char d).isBlank = false := by
    obtain ⟨c, t, text, opens_⟩ := opens_numeric ⟨d, [], digit, .inl rfl⟩
    obtain ⟨rfl, -⟩ := List.cons.inj text
    simp only [opens, Bool.and_eq_true, Bool.not_eq_true'] at opens_
    exact opens_.1.1.1.1
  have others : d ≠ '[' ∧ d ≠ ']' ∧ d ≠ '\x7b' ∧ d ≠ '\x7d' ∧ d ≠ ',' ∧ d ≠ ':' := by
    refine ⟨?_, ?_, ?_, ?_, ?_, ?_⟩ <;>
    · rintro rfl
      cases digit
  simp [solid, marks, Text.ofString, blank, others]

theorem firm_number {w : Text} (h : IsNumber w) : firm w = true := by
  apply firm_all
  refine number_chars h (fun d digit => ⟨solid_digit digit, plain_digit digit, ?_⟩) (by decide)
  intro same
  obtain rfl := CodePoint.char.inj same
  cases digit

/-- Only `null` can stand for something else. -/
theorem firm_word {w : Text} {x : Json} (h : (w, x) ∈ words) :
    (w = Text.ofString "null" ∧ x = .null) ∨ firm w = true := by
  simp only [words, List.mem_cons, List.not_mem_nil, or_false, Prod.mk.injEq] at h
  rcases h with null | ⟨rfl, -⟩ | ⟨rfl, -⟩ | ⟨rfl, -⟩ | ⟨rfl, -⟩ | ⟨rfl, -⟩
  · exact .inl null
  · exact .inr rfl
  · exact .inr rfl
  · exact .inr rfl
  · exact .inr rfl
  · exact .inr rfl

/-! ## Trees -/

section

variable {m m' : Manner} {f : Text → Text} {Safe Front : Text → Prop}
  (back : Reflects m m' f Safe Front)

include back

/-- If the elements of a series come from others, the series comes from one of these. -/
theorem reflects_series {α : Type} {each each' : α → Text → Prop} {like : α → α → Prop}
    {xs : List α} {s u r : Text} (opened : ∀ x s, each' x s → Opens s)
    (turns : ∀ x ∈ xs, ∀ s u r, each' x s → Safe u → Front u → f u = s ++ r →
      ∃ y, like y x ∧ Splits f (each y) Safe u r)
    (safe : Safe u) (h : Series m' each' xs s) (left : f u = s ++ r) (closes : Closes r) :
    ∃ ys, List.Forall₂ like ys xs ∧
      Splits f (Series m each ys) (fun u' => Safe u' ∧ Front u') u r := by
  -- Each piece that is left is taken off what was given, from the first to the last; `left` says
  -- what the pass makes of the rest.
  induction h generalizing u with
  | @last x g s t gap laid tail =>
      simp only [List.append_assoc] at left
      obtain ⟨g', u₁, rfl, gap', ⟨safe, front⟩, left⟩ :=
        back.gap safe left gap (ahead_opens (opened _ _ laid) _)
      obtain ⟨y, like_, s', u₂, rfl, laid', safe, left⟩ :=
        turns _ List.mem_cons_self _ _ _ laid safe front left
      obtain ⟨t', u₃, rfl, tail', after, left⟩ := back.tail safe left tail closes
      exact ⟨[y], .cons like_ .nil, g' ++ (s' ++ t'), u₃, by simp, .last gap' laid' tail', after,
        left⟩
  | @next x xs g s b t gap laid between_ rest ih =>
      simp only [List.append_assoc, List.cons_append] at left
      obtain ⟨g', u₁, rfl, gap', ⟨safe, front⟩, left⟩ :=
        back.gap safe left gap (ahead_opens (opened _ _ laid) _)
      obtain ⟨y, like_, s', u₂, rfl, laid', safe, left⟩ :=
        turns _ List.mem_cons_self _ _ _ laid safe front left
      obtain ⟨b', u₃, rfl, between', ⟨safe, front⟩, left⟩ :=
        back.gap safe left between_ ⟨_, _, rfl, .inr rfl⟩
      obtain ⟨_, u₄, rfl, rfl, safe, left⟩ := back.mark safe front left (by decide)
      obtain ⟨ys, likes, t', u₅, rfl, rest', after, left⟩ :=
        ih (fun x among => turns x (List.mem_cons_of_mem _ among)) safe left
      exact ⟨y :: ys, .cons like_ likes, g' ++ (s' ++ (b' ++ .char ',' :: t')), u₅, by simp,
        .next gap' laid' between' rest', after, left⟩

theorem reflects_named {name s u r : Text} {v : Tree}
    (turns : ∀ s u r, Laid m' v s → Safe u → Front u → f u = s ++ r →
      ∃ w, w.value = v.value ∧ Splits f (Laid m w) Safe u r)
    (h : Named m' (Laid m') (name, v) s) (safe : Safe u) (front : Front u) (left : f u = s ++ r) :
    ∃ w, w.value = v.value ∧ Splits f (Named m (Laid m) (name, w)) Safe u r := by
  cases h with
  | @mk _ _ g b s body gap between_ laid =>
      simp only [List.append_assoc, List.cons_append] at left
      obtain ⟨_, u₁, rfl, rfl, safe, left⟩ := back.string safe front left body
      obtain ⟨g', u₂, rfl, gap', ⟨safe, front⟩, left⟩ :=
        back.gap safe left gap ⟨_, _, rfl, .inl rfl⟩
      obtain ⟨_, u₃, rfl, rfl, safe, left⟩ := back.mark safe front left (by decide)
      obtain ⟨b', u₄, rfl, between', ⟨safe, front⟩, left⟩ :=
        back.gap safe left between_ (ahead_opens (laid_opens laid) _)
      obtain ⟨w, same, s', u₅, rfl, laid', safe, left⟩ := turns _ _ _ laid safe front left
      exact ⟨w, same, between name ++ (g' ++ .char ':' :: (b' ++ s')), u₅, by simp,
        .mk body gap' between' laid', safe, left⟩

/-- What is left as a text of a tree was given as one of an equal tree. -/
theorem reflects_laid (v : Tree) : ∀ s u r, Laid m' v s → Safe u → Front u → f u = s ++ r →
    ∃ w, w.value = v.value ∧ Splits f (Laid m w) Safe u r := by
  have closing {c : Char} (bracket : c = ']' ∨ c = '\x7d') (r : Text) : Closes (.char c :: r) :=
    ⟨c, r, rfl, bracket⟩
  induction v using Tree.induct with
  | null =>
      intro s u r h safe front left
      exact ⟨.null, rfl, back.null safe front left h⟩
  | word w v =>
      intro s u r h safe front left
      cases h with
      | word among =>
          rcases firm_word among with ⟨rfl, rfl⟩ | firm_
          -- The word may come from a placeholder, so it is no word of the tree.
          · exact ⟨.null, rfl, back.null safe front left .null⟩
          · exact ⟨.word w v, rfl, splits_mono (back.firm safe front left firm_)
              (by rintro s rfl; exact .word among) fun _ safe => safe⟩
  | number w =>
      intro s u r h safe front left
      cases h with
      | number written =>
          have firm_ := firm_number written
          exact ⟨.number w, rfl, splits_mono (back.firm safe front left firm_)
            (by rintro s rfl; exact .number written) fun _ safe => safe⟩
  | string body =>
      intro s u r h safe front left
      cases h with
      | string body_ =>
          exact ⟨.string body, rfl, splits_mono (back.string safe front left body_)
            (by rintro s rfl; exact .string body_) fun _ safe => safe⟩
  | array items ih =>
      intro s u r h safe front left
      cases h with
      | @noItem g gap =>
          simp only [List.append_assoc, List.cons_append, List.nil_append] at left
          obtain ⟨_, u₁, rfl, rfl, safe', left⟩ := back.mark safe front left (by decide)
          obtain ⟨g', u₂, rfl, gap', ⟨safe, front⟩, left⟩ :=
            back.empty safe (by decide) left gap (closing (.inl rfl) _)
          obtain ⟨_, u₃, rfl, rfl, safe, left⟩ := back.mark safe front left (by decide)
          exact ⟨.array [], rfl, .char '[' :: (g' ++ [.char ']']), u₃, by simp, .noItem gap', safe,
            left⟩
      | array series =>
          simp only [List.append_assoc, List.cons_append, List.nil_append] at left
          obtain ⟨_, u₁, rfl, rfl, safe, left⟩ := back.mark safe front left (by decide)
          obtain ⟨ws, same, s', u₂, rfl, series', ⟨safe, front⟩, left⟩ :=
            reflects_series back (fun _ _ => laid_opens) ih safe series left (closing (.inl rfl) _)
          obtain ⟨_, u₃, rfl, rfl, safe, left⟩ := back.mark safe front left (by decide)
          exact ⟨.array ws, by rw [Tree.value, Tree.value, values_same same],
            .char '[' :: (s' ++ [.char ']']), u₃, by simp, .array series', safe, left⟩
  | object members ih =>
      intro s u r h safe front left
      cases h with
      | @noMember g gap =>
          simp only [List.append_assoc, List.cons_append, List.nil_append] at left
          obtain ⟨_, u₁, rfl, rfl, safe', left⟩ := back.mark safe front left (by decide)
          obtain ⟨g', u₂, rfl, gap', ⟨safe, front⟩, left⟩ :=
            back.empty safe (by decide) left gap (closing (.inr rfl) _)
          obtain ⟨_, u₃, rfl, rfl, safe, left⟩ := back.mark safe front left (by decide)
          exact ⟨.object [], rfl, .char '\x7b' :: (g' ++ [.char '\x7d']), u₃, by simp,
            .noMember gap', safe, left⟩
      | object series =>
          simp only [List.append_assoc, List.cons_append, List.nil_append] at left
          obtain ⟨_, u₁, rfl, rfl, safe, left⟩ := back.mark safe front left (by decide)
          have turns : ∀ x ∈ members, ∀ s u r, Named m' (Laid m') x s → Safe u → Front u →
              f u = s ++ r → ∃ y : Text × Tree, (y.1 = x.1 ∧ y.2.value = x.2.value) ∧
                Splits f (Named m (Laid m) y) Safe u r := by
            rintro ⟨name, v⟩ among s u r named safe front left
            obtain ⟨w, same, splits⟩ := reflects_named back (ih _ among) named safe front left
            exact ⟨(name, w), ⟨rfl, same⟩, splits⟩
          obtain ⟨ms, same, s', u₂, rfl, series', ⟨safe, front⟩, left⟩ :=
            reflects_series back (fun _ _ => named_opens) turns safe series left
              (closing (.inr rfl) _)
          obtain ⟨_, u₃, rfl, rfl, safe, left⟩ := back.mark safe front left (by decide)
          exact ⟨.object ms, by rw [Tree.value, Tree.value, fields_same same],
            .char '\x7b' :: (s' ++ [.char '\x7d']), u₃, by simp, .object series', safe, left⟩

theorem reflects_written {v : Tree} {u : Text} (safe : Safe u) (h : Written m' v (f u)) :
    ∃ w, w.value = v.value ∧ Written m w u := by
  generalize text : f u = t at h
  obtain ⟨gap, laid, ending⟩ := h
  obtain ⟨g, u₁, rfl, gap', ⟨safe, front⟩, left⟩ :=
    back.gap safe text gap (ahead_opens (laid_opens laid) _)
  obtain ⟨w, same, s, u₂, rfl, laid', safe, left⟩ := reflects_laid back v _ _ _ laid safe front left
  exact ⟨w, same, .mk gap' laid' (back.ending safe (left ▸ ending))⟩

end

end Variables

end ApprovedOps
