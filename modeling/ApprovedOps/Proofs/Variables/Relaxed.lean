import Mathlib
import ApprovedOps.Proofs.Variables.Comments
import ApprovedOps.Proofs.Variables.Commas

/-! # What is accepted as variables

Every decorated text keeps its comments out of its tokens and its commas behind elements. The texts
that are accepted and do so are the decorated ones.
-/

namespace ApprovedOps

namespace Variables

open Json Json.Reader

/-! ## Decorated texts bring nothing together -/

/-- Are the comments of the text apart and the commas that are left of it led? -/
def Sound (r : Text) : Prop :=
  apart r = true ∧ led (dropComments r) = true

/-- Does no token go on in the text? -/
def Clear (r : Text) : Prop :=
  EndsName r ∧ (dropComments r).head?.any solid = false

theorem clear_bridged {r : Text} (h : Clear r) : bridged r = false := by
  rw [bridged, h.2, Bool.and_false]

theorem apart_comment {c : CodePoint} {r rest : Text} {n : Nat}
    (kind : Decoration.of c r = .comment n) (drop : r.drop n = rest) :
    apart (c :: r) = apart rest := by
  rw [apart, kind]
  dsimp only
  rw [drop]

theorem apart_skip {c : CodePoint} (h : plain c = true ∨ c = .char ',') (open_ : solid c = false)
    (r : Text) : apart (c :: r) = apart r := by
  simp [apart_of_plain h, open_]

theorem apart_gap {m : Manner} {g : Text} (h : Gap m g) (r : Text) : apart (g ++ r) = apart r := by
  induction h with
  | nil => rfl
  | @blank c s blank_ rest ih =>
      obtain ⟨blank, -, plain_, -⟩ := blank_solid blank_
      rw [List.cons_append, apart_skip (.inl plain_) (by simp [solid, blank]), ih]
  | @line mark body s comments among noBreak rest ih =>
      obtain ⟨c, t, n, text, kind, drop⟩ := of_mark among (body ++ .char '\n' :: (s ++ r))
      rw [lineTail_body noBreak (.inr ⟨_, rfl⟩), List.drop_left] at drop
      rw [List.append_assoc, List.append_assoc, List.cons_append, text, apart_comment kind drop,
        apart_skip (.inl rfl) rfl, ih]
  | @block body s comments closed rest ih =>
      obtain ⟨n, kind, drop⟩ := of_block closed (s ++ r)
      have parts : .char '/' :: .char '*' :: (body ++ .char '*' :: .char '/' :: s) ++ r =
          .char '/' :: .char '*' :: (body ++ .char '*' :: .char '/' :: (s ++ r)) := by simp
      rw [parts, apart_comment kind drop, ih]

theorem apart_word {w r : Text} (all : ∀ c ∈ w, plain c = true) (clear : Clear r) :
    apart (w ++ r) = apart r := by
  induction w with
  | nil => rfl
  | cons c w ih =>
      obtain ⟨plain_, all⟩ := List.forall_mem_cons.mp all
      have next : bridged (w ++ r) = false := by
        cases w with
        | nil => exact clear_bridged clear
        | cons d w =>
            rw [List.cons_append, bridged, commented, of_plain _ (.inl (all d List.mem_cons_self))]
            rfl
      rw [List.cons_append, apart_of_plain (.inl plain_), next, ih all, Bool.and_false]
      rfl

theorem apart_string {body : Text} (h : StringBody body) (r : Text) :
    apart (between body ++ r) = apart r := by
  obtain ⟨t, n, text, tail, -, rest⟩ := between_split h r
  rw [text, apart, Decoration.of.eq_def, if_pos rfl, tail]
  dsimp only
  rw [rest]

theorem apart_placeholder {c : CodePoint} {name r : Text} (first : c.isNameStart = true)
    (all : ∀ d ∈ name, d.isNameContinue = true) (clear : Clear r) :
    apart (.char '$' :: c :: (name ++ r)) = apart r := by
  obtain ⟨n, kind, rest⟩ := of_name first all clear.1
  rw [apart, kind]
  dsimp only
  rw [rest]

theorem led_run {w : Text} (all : ∀ c ∈ w, c ∉ Text.ofString "\"[\x7b") (r : Text) :
    led (w ++ r) = led r := by
  induction w with
  | nil => rfl
  | cons c w ih =>
      obtain ⟨first, all⟩ := List.forall_mem_cons.mp all
      simp [Text.ofString] at first
      rw [List.cons_append, led, if_neg (by simp [first])]
      simp [Text.ofString, first, ih all]

theorem led_between {body : Text} (h : StringBody body) (r : Text) :
    led (between body ++ r) = led r := by
  obtain ⟨t, n, text, tail, -, rest⟩ := between_split h r
  rw [text, led, if_pos rfl, tail]
  dsimp only
  rw [rest]

/-! ## Pieces of decorated texts -/

theorem sound_gap {m : Manner} {g r : Text} (gap : Gap m g) (sound : Sound r) : Sound (g ++ r) := by
  obtain ⟨g', gap', drops⟩ := gap_dropComments gap
  have others : ∀ c ∈ g', c ∉ Text.ofString "\"[\x7b" := by
    intro c among
    have blank := gap_blanks rfl gap' c among
    simp only [isBlank, Bool.or_eq_true, decide_eq_true_eq] at blank
    obtain ((rfl | rfl) | rfl) | rfl := blank <;> decide
  refine ⟨(apart_gap gap r).trans sound.1, ?_⟩
  rw [drops, led_run others, sound.2]

theorem clear_gap {m : Manner} {g r : Text} (gap : Gap m g) (clear : Clear r) :
    Clear (g ++ r) := by
  obtain ⟨g', gap', drops⟩ := gap_dropComments gap
  refine ⟨gap_endsName gap clear.1, ?_⟩
  rw [drops]
  cases gap' with
  | nil => exact clear.2
  | blank blank_ rest => simp [solid, blank_solid blank_]
  | line comments => cases comments
  | block comments => cases comments

theorem dropComments_separator {c : CodePoint} (h : c ∈ marks) (r : Text) :
    dropComments (c :: r) = c :: dropComments r := by
  have kinds : ∀ c ∈ marks, plain c = true ∨ c = .char ',' := by decide
  rw [dropComments, of_plain r (kinds c h)]

theorem clear_mark {c : CodePoint} (h : c ∈ marks) (r : Text) : Clear (c :: r) := by
  refine ⟨?_, ?_⟩
  · have names : ∀ c ∈ marks, c.isNameContinue = false := by decide
    rintro d ⟨⟩
    exact names c h
  · simp [dropComments_separator h, solid, h]

theorem sound_mark {c : CodePoint} {r : Text} (h : c ∈ marks) (sound : Sound r)
    (behind : c ∈ Text.ofString "[\x7b" → commaNext (dropComments r) = false) : Sound (c :: r) := by
  have kinds : ∀ c ∈ marks, (plain c = true ∨ c = .char ',') ∧ c ≠ .char '"' := by decide
  refine ⟨(apart_skip (kinds c h).1 (by simp [solid, h]) r).trans sound.1, ?_⟩
  rw [dropComments_separator h, led, if_neg (kinds c h).2, sound.2, Bool.and_true]
  simpa [imp_iff_not_or] using behind

theorem sound_token {w r : Text} (all : ∀ c ∈ w, solid c = true ∧ plain c = true)
    (sound : Sound r) (clear : Clear r) : Sound (w ++ r) := by
  have others : ∀ c ∈ w, c ∉ Text.ofString "\"[\x7b" := by
    have none_ : ∀ c ∈ Text.ofString "\"[\x7b", ¬(solid c = true ∧ plain c = true) := by decide
    exact fun c among inside => none_ c inside (all c among)
  refine ⟨(apart_word (fun c among => (all c among).2) clear).trans sound.1, ?_⟩
  rw [keeps_plain dropComments_keeps (fun c among => (all c among).2), led_run others, sound.2]

theorem sound_between {body r : Text} (h : StringBody body) (sound : Sound r) :
    Sound (between body ++ r) := by
  refine ⟨(apart_string h r).trans sound.1, ?_⟩
  rw [dropComments_keeps.between _ _ h, led_between h, sound.2]

theorem sound_tail {m : Manner} {t r : Text} (tail : Tail m t) (closes : Closes r)
    (sound : Sound r) : Sound (t ++ r) ∧ Clear (t ++ r) := by
  have clear : Clear r := by
    obtain ⟨c, r', rfl, rfl | rfl⟩ := closes
    · exact clear_mark (by decide) r'
    · exact clear_mark (by decide) r'
  cases tail with
  | gap gap => exact ⟨sound_gap gap sound, clear_gap gap clear⟩
  | comma commas gap gap' =>
      have comma := sound_mark (c := .char ',') (by decide) (sound_gap gap' sound)
        fun opening => absurd opening (by decide)
      rw [List.append_assoc, List.cons_append]
      exact ⟨sound_gap gap comma, clear_gap gap (clear_mark (by decide) _)⟩

theorem sound_ending {m : Manner} {e : Text} (ending : Ending m e) : Sound e ∧ Clear e := by
  have nothing : Sound [] ∧ Clear [] := by
    refine ⟨⟨by rw [apart], ?_⟩, nofun, ?_⟩
    · rw [dropComments_keeps.nil, led]
    · rw [dropComments_keeps.nil]
      rfl
  cases ending with
  | gap gap =>
      rw [← List.append_nil e]
      exact ⟨sound_gap gap nothing.1, clear_gap gap nothing.2⟩
  | @line g mark body comments gap among noBreak =>
      have line := lineTail_body (r := []) noBreak (.inl rfl)
      rw [List.append_nil] at line
      have drops : dropComments (mark ++ body) = [] := by
        rw [dropComments_mark among, line, List.drop_length, dropComments_keeps.nil]
      have sound : Sound (mark ++ body) := by
        obtain ⟨c, t, n, text, kind, rest⟩ := of_mark among body
        rw [line, List.drop_length] at rest
        refine ⟨?_, by rw [drops, led]⟩
        rw [text, apart_comment kind rest, apart]
      have clear : Clear (mark ++ body) :=
        ⟨ending_endsName (.line comments .nil among noBreak : Ending m ([] ++ (mark ++ body))),
          by rw [drops]; rfl⟩
      exact ⟨sound_gap gap sound, clear_gap gap clear⟩

/-! ## Decorated trees -/

theorem commaNext_gap {m : Manner} {g : Text} (gap : Gap m g) (none_ : m.comments = false)
    (r : Text) : commaNext (g ++ r) = commaNext r := by
  rw [commaNext, List.dropWhile_append_of_pos (gap_blanks none_ gap), commaNext]

theorem commaNext_opens {s : Text} (h : Opens s) (r : Text) : commaNext (s ++ r) = false := by
  obtain ⟨c, t, rfl, opens_⟩ := h
  have blank := isBlank_of_opens opens_
  have comma : c ≠ .char ',' := by
    rintro rfl
    cases opens_
  simp [commaNext, List.dropWhile_cons_of_neg, blank, comma]

theorem commaNext_series {α : Type} {m : Manner} {each : α → Text → Prop} {xs : List α} {s : Text}
    (opened : ∀ x s, each x s → Opens s) (none_ : m.comments = false) (h : Series m each xs s)
    (r : Text) : commaNext (s ++ r) = false := by
  cases h with
  | last gap laid tail | next gap laid between_ rest =>
      rw [List.append_assoc, List.append_assoc, commaNext_gap gap none_]
      exact commaNext_opens (opened _ _ laid) _

section

variable {m : Manner}

theorem sound_series {α : Type} {each : α → Text → Prop} {xs : List α} {s r : Text}
    (elements : ∀ x ∈ xs, ∀ s, each x s → ∀ r, Sound r → Clear r → Sound (s ++ r))
    (h : Series m each xs s) (closes : Closes r) (sound : Sound r) : Sound (s ++ r) := by
  induction h with
  | last gap laid tail =>
      obtain ⟨sound, clear⟩ := sound_tail tail closes sound
      rw [List.append_assoc, List.append_assoc]
      exact sound_gap gap (elements _ List.mem_cons_self _ laid _ sound clear)
  | next gap laid between_ rest ih =>
      have later := ih fun x among => elements x (List.mem_cons_of_mem _ among)
      have comma := sound_mark (c := .char ',') (by decide) later
        fun opening => absurd opening (by decide)
      rw [next_text]
      exact sound_gap gap (elements _ List.mem_cons_self _ laid _ (sound_gap between_ comma)
        (clear_gap between_ (clear_mark (by decide) _)))

theorem sound_named {each : Tree → Text → Prop} {x : Text × Tree} {s : Text}
    (value : ∀ s, each x.2 s → ∀ r, Sound r → Clear r → Sound (s ++ r)) (h : Named m each x s) :
    ∀ r, Sound r → Clear r → Sound (s ++ r) := by
  intro r sound clear
  cases h with
  | mk name gap gap' laid =>
      have colon := sound_mark (c := .char ':') (by decide)
        (sound_gap gap' (value _ laid r sound clear)) fun opening => absurd opening (by decide)
      simp only [List.append_assoc, List.cons_append]
      exact sound_between name (sound_gap gap colon)

/-- A tree brings nothing together in front of what no token goes on in. -/
theorem sound_laid (v : Tree) : ∀ s, Laid m v s → ∀ r, Sound r → Clear r → Sound (s ++ r) := by
  have closing {c : Char} (bracket : c = ']' ∨ c = '\x7d') {r : Text} (sound : Sound r) :
      Closes (.char c :: r) ∧ Sound (.char c :: r) := by
    refine ⟨⟨c, r, rfl, bracket⟩, sound_mark ?_ sound ?_⟩
    · obtain rfl | rfl := bracket <;> decide
    · obtain rfl | rfl := bracket <;> exact fun opening => absurd opening (by decide)
  induction v using Tree.induct with
  | null =>
      intro s h r sound clear
      cases h with
      | null => exact sound_token (by decide) sound clear
      | placeholder comments first all =>
          have others : ∀ c ∈ Text.ofString "null", c ∉ Text.ofString "\"[\x7b" := by decide
          refine ⟨(apart_placeholder first all clear).trans sound.1, ?_⟩
          have drops := dropComments_placeholder first all clear.1
          simp only [List.cons_append]
          rw [drops, led_run others, sound.2]
  | word w v =>
      intro s h r sound clear
      cases h with
      | word among =>
          have chars : ∀ w ∈ words, ∀ c ∈ w.1, solid c = true ∧ plain c = true := by decide
          exact sound_token (chars _ among) sound clear
  | number w =>
      intro s h r sound clear
      cases h with
      | number written => exact sound_token (firm_chars (firm_number written)) sound clear
  | string body =>
      intro s h r sound clear
      cases h with
      | string body_ => exact sound_between body_ sound
  | array items ih =>
      intro s h r sound clear
      obtain ⟨closes, sound⟩ := closing (c := ']') (.inl rfl) sound
      cases h with
      | noItem gap =>
          rw [brackets_text]
          refine sound_mark (by decide) (sound_gap gap sound) fun _ => ?_
          obtain ⟨g', gap', drops⟩ := gap_dropComments gap
          rw [drops, commaNext_gap gap' rfl, dropComments_separator (by decide)]
          rfl
      | array series =>
          rw [brackets_text]
          refine sound_mark (by decide) (sound_series ih series closes sound) fun _ => ?_
          obtain ⟨s', series', drops⟩ := pass_series (dropComments_pass m) (fun _ _ => laid_opens)
            (fun v _ => pass_laid (dropComments_pass m) v) series
          rw [drops _ closes]
          exact commaNext_series (fun _ _ => laid_opens) rfl series' _
  | object members ih =>
      intro s h r sound clear
      obtain ⟨closes, sound⟩ := closing (c := '\x7d') (.inr rfl) sound
      cases h with
      | noMember gap =>
          rw [brackets_text]
          refine sound_mark (by decide) (sound_gap gap sound) fun _ => ?_
          obtain ⟨g', gap', drops⟩ := gap_dropComments gap
          rw [drops, commaNext_gap gap' rfl, dropComments_separator (by decide)]
          rfl
      | object series =>
          rw [brackets_text]
          refine sound_mark (by decide) (sound_series (fun x among s named =>
            sound_named (ih x among) named) series closes sound) fun _ => ?_
          have turns : ∀ x ∈ members, ∀ s, Named m (Laid m) x s → ∃ s',
              Named ⟨false, m.commas⟩ (Laid ⟨false, m.commas⟩) x s' ∧
                ∀ r, EndsName r → dropComments (s ++ r) = s' ++ dropComments r :=
            fun x _ s named =>
              pass_named (dropComments_pass m) (pass_laid (dropComments_pass m) x.2) named
          obtain ⟨s', series', drops⟩ := pass_series (dropComments_pass m)
            (fun _ _ => named_opens) turns series
          rw [drops _ closes]
          exact commaNext_series (fun _ _ => named_opens) rfl series' _

end

/-- In a decorated text no comment is inside a token and no comma follows an opening bracket. -/
theorem written_sound {m : Manner} {v : Tree} {t : Text} (h : Written m v t) : Sound t := by
  obtain ⟨gap, laid, ending⟩ := h
  obtain ⟨sound, clear⟩ := sound_ending ending
  exact sound_gap gap (sound_laid v _ laid _ sound clear)

/-! ## Accepted texts -/

/-- A text that is accepted is a decorated one if and only if its comments are outside its tokens
and none of its commas follows an opening bracket. What is returned is written for its value. -/
theorem clean_relaxed {indent : Nat} {t out : Text} (cleaned : clean indent t = .ok out) :
    ((∃ v, Written Manner.decorated v t) ↔ apart t = true ∧ led (dropComments t) = true) ∧
      ∀ v, Written Manner.decorated v t → ∃ x, v.value = .ok x ∧ out = x.render indent := by
  obtain ⟨x, read, -, rfl⟩ := clean_ok cleaned
  refine ⟨⟨fun ⟨v, written⟩ => written_sound written, fun ⟨comments, commas⟩ => ?_⟩, ?_⟩
  · obtain ⟨v, plain, -⟩ := read_tree read
    obtain ⟨w, -, written⟩ := reflects_written dropCommas_reflects commas plain
    obtain ⟨w', -, decorated⟩ := reflects_written (dropComments_reflects true) comments written
    exact ⟨w', decorated⟩
  · intro v written
    exact ⟨x, (read_written (strip_written written)).symm.trans read, rfl⟩

/-- A placeholder, a comment behind a number, and a comma behind the last element. -/
theorem clean_relaxed_of_list :
    clean 2 "[$a,1/**/,]" = .ok "[\n  null,\n  1\n]" ∧
      ∃ v x, Written Manner.decorated v "[$a,1/**/,]" ∧ v.value = .ok x ∧
        x.render 2 = "[\n  null,\n  1\n]" := by
  have cleaned : clean 2 "[$a,1/**/,]" = .ok "[\n  null,\n  1\n]" := by cbv
  obtain ⟨known, rendered⟩ := clean_relaxed cleaned
  obtain ⟨v, written⟩ := known.mpr ⟨by cbv, by cbv⟩
  obtain ⟨x, value, same⟩ := rendered v written
  exact ⟨cleaned, v, x, written, value, same.symm⟩

/-- A comment joins two numbers to one, and a comma without an element is dropped. -/
theorem clean_joined :
    (clean 2 "1/**/2" = .ok "12" ∧ ¬∃ v, Written Manner.decorated v "1/**/2") ∧
      clean 2 "[,]" = .ok "[]" ∧ ¬∃ v, Written Manner.decorated v "[,]" := by
  have joined : apart "1/**/2" = false := by cbv
  have orphan : led (dropComments "[,]") = false := by cbv
  refine ⟨⟨by cbv, ?_⟩, by cbv, ?_⟩
  · rintro ⟨v, written⟩
    exact Bool.false_ne_true (joined.symm.trans (written_sound written).1)
  · rintro ⟨v, written⟩
    exact Bool.false_ne_true (orphan.symm.trans (written_sound written).2)

end Variables

end ApprovedOps
