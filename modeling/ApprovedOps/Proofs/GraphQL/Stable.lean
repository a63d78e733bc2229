import ApprovedOps.GraphQL.Canonical
import ApprovedOps.Proofs.GraphQL.Laid.Documents

/-! # Canonical texts stay as they are

The normal layout of a document is read as this document again, and so the canonical form of a text
is its own canonical form. There are two exceptions. A query of selections only is written as bare
braces, and where a definition comes before it that could have had braces but has none, they are read
as that definition's. And a single line in a block string that begins with a blank, but holds a line
break of another kind than a line feed, is written on a line of its own and loses its blanks when it
is read there.
-/

namespace ApprovedOps

namespace GraphQL

instance (content : Text) : Decidable (BlockString.IsSteady content) :=
  inferInstanceAs (Decidable (CodePoint.char '\n' ∉ content →
    content.head?.any BlockString.isSpace = true → (BlockString.lines content).length ≤ 1))

instance (l : Lexed) : Decidable l.IsSteady :=
  match l with
  | .token t => inferInstanceAs (Decidable (t.kind = .blockString → BlockString.IsSteady t.value))
  | .broken _ => isTrue trivial

instance (ds : Document) : Decidable ds.Unambiguous :=
  inferInstanceAs (Decidable (List.IsChain (fun d next => d.isOpen = true → next.isBare = false) ds))

/-- The normal layout of a document that was read is read as the same document. -/
theorem Document.ofText_render {t : Text} {ds : Document} (read : Document.ofText t = .ok ds)
    (steady : ∀ l ∈ Lexed.scan t, l.IsSteady) (apart : ds.Unambiguous) :
    Document.ofText ds.render = .ok ds := by
  obtain ⟨some_, again⟩ := ofText_again read steady
  have spelled := document_spelled (fun d among => (again d among).1.sound)
    fun d among => (again d among).2
  exact ofText_spelled spelled some_ again apart

end GraphQL

namespace Canonical

open GraphQL (Document Lexed)

/-- Does no query that is written as bare braces come right after a definition that these would
    belong to? -/
def KeepsApart (t : Text) : Prop :=
  ∀ ds, Document.ofText t = .ok ds → ds.Unambiguous

instance (t : Text) : Decidable (KeepsApart t) :=
  match read : Document.ofText t with
  | .ok ds => decidable_of_iff ds.Unambiguous
      ⟨fun h _ same => Except.ok.inj (read.symm.trans same) ▸ h, fun h => h ds read⟩
  | .error _ => isTrue fun _ same => nomatch read.symm.trans same

theorem ofText_query {t : Text} {c : Canonical} (h : ofText t = .ok c) :
    ∃ ds, Document.ofText t = .ok ds ∧ c.query = ds.render := by
  rw [ofText] at h
  split at h
  next => cases h
  next ds read =>
    split at h
    next => cases h
    next =>
      split at h
      next => cases h
      next =>
        cases h
        exact ⟨ds, read, rfl⟩

-- The blank at the beginning of a single line is lost when the line gets one of its own.
example :
    ofText (Text.ofString "query A \x7b a(s: \"\"\" b\u2028c\"\"\") \x7d") =
      .ok ⟨Text.ofString
        "query A \x7b\n  a(s: \"\"\"\n   b\u2028c\n  \"\"\")\n\x7d", "A"⟩ ∧
    ofText (Text.ofString
      "query A \x7b\n  a(s: \"\"\"\n   b\u2028c\n  \"\"\")\n\x7d") =
      .ok ⟨Text.ofString
        "query A \x7b\n  a(s: \"\"\"\n  b\u2028c\n  \"\"\")\n\x7d", "A"⟩ := by
  decide +kernel

end Canonical

end ApprovedOps
