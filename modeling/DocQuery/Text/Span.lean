/-!
# Spans of code points

A property of characters is tabulated as a list of closed spans of code points. `Spans.contains`
decides membership, and `Spans.contains_iff` says what it decides. The tables of properties and of
case maps are those of version 17.0 of the Unicode standard.
-/

namespace DocQuery.Text

/-- Closed spans of code points, each given by its first and its last member. -/
abbrev Spans := List (Nat × Nat)

namespace Spans

/-- Whether a code point lies in one of the spans. -/
def contains (spans : Spans) (code : Nat) : Bool :=
  spans.any fun span => span.1 ≤ code && code ≤ span.2

theorem contains_iff {spans : Spans} {code : Nat} :
    spans.contains code = true ↔ ∃ span ∈ spans, span.1 ≤ code ∧ code ≤ span.2 := by
  simp [contains]

end Spans

end DocQuery.Text
