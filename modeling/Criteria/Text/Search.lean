/-!
# Substring Search

Whether one text occurs in another.

## Main definitions

* `occursIn`: The search, by trying every position.

## Theorems

* `occursIn_iff`: A text occurs in another exactly when the other is made of
  something before it, the text, and something after it.
-/

namespace Criteria

namespace Text

/-- Whether `needle` stands somewhere in the text, tried at one position after
    the other. The empty text stands everywhere. -/
def occursIn (needle : List Char) : List Char → Bool
  | [] => needle.isEmpty
  | c :: cs => needle.isPrefixOf (c :: cs) || occursIn needle cs

theorem occursIn_iff (needle cs : List Char) :
    occursIn needle cs = true ↔ ∃ before after, cs = before ++ needle ++ after := by
  induction cs with
  | nil =>
      simp only [occursIn, List.isEmpty_iff]
      constructor
      · rintro rfl
        exact ⟨[], [], rfl⟩
      · rintro ⟨before, after, h⟩
        simp only [List.nil_eq, List.append_eq_nil_iff] at h
        exact h.1.2
  | cons c cs ih =>
      simp only [occursIn, Bool.or_eq_true, List.isPrefixOf_iff_prefix, ih]
      constructor
      · rintro (⟨after, h⟩ | ⟨before, after, h⟩)
        · exact ⟨[], after, by rw [← h, List.nil_append]⟩
        · exact ⟨c :: before, after, by rw [h, List.cons_append, List.cons_append]⟩
      · rintro ⟨before, after, h⟩
        cases before with
        | nil => exact Or.inl ⟨after, by rw [h, List.nil_append]⟩
        | cons b before =>
            simp only [List.cons_append, List.cons.injEq] at h
            exact Or.inr ⟨before, after, h.2⟩

end Text

end Criteria
