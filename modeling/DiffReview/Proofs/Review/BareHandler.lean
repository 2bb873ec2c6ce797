import DiffReview.Proofs.Text.Search
import DiffReview.Review.Rule

/-!
# Bare exception handlers

A line is a bare handler for the rule when somewhere in it the word `except` begins a word and only
blanks stand between it and a colon. Every occurrence of `except` counts for itself: what stands in
front of it and fails does not keep a later one from being found, and an occurrence inside a longer
word, or with anything else behind it, is never taken.
-/
namespace DiffReview

namespace Text

/-- A word can begin behind the text: no word character stands at its end. -/
def BeforeWord (x : List Char) : Prop := ∀ c ∈ x.getLast?, isWord c = false

/-- What follows the blanks at the front is a colon. -/
theorem head?_dropWhile_isBlank_iff {rest : List Char} :
    (rest.dropWhile isBlank).head? = some ':' ↔
      ∃ w y, rest = w ++ ':' :: y ∧ ∀ c ∈ w, isBlank c = true := by
  rw [← List.singleton_prefix_iff_head?_eq_some, cons_prefix_dropWhile_iff (by decide)]
  rfl

/-- A handler is an occurrence of the word with nothing but blanks in front of a colon. -/
theorem hasHandler_iff_occurrence {s : List Char} :
    HasHandler s ↔ ∃ x rest, s = x ++ "except".toList ++ rest ∧ BeforeWord x ∧
      (rest.dropWhile isBlank).head? = some ':' := by
  simp only [head?_dropWhile_isBlank_iff]
  constructor
  · rintro ⟨x, w, y, hs, hw, hx⟩
    exact ⟨x, w ++ ':' :: y, by simpa using hs, hx, w, y, rfl, hw⟩
  · rintro ⟨x, rest, hs, hx, w, y, rfl, hw⟩
    exact ⟨x, w, y, by simpa using hs, hw, hx⟩

theorem BeforeWord.append {x x' : List Char} (h : BeforeWord x) (h' : BeforeWord x') :
    BeforeWord (x ++ x') := by
  intro c hc
  rw [List.getLast?_append] at hc
  cases hl : x'.getLast? with
  | none =>
    rw [hl] at hc
    exact h c hc
  | some d =>
    rw [hl] at hc
    exact h' c (hl ▸ hc)

/-- A handler is found behind any text that does not end in a word. -/
theorem HasHandler.append_left {x s : List Char} (hx : BeforeWord x) (h : HasHandler s) :
    HasHandler (x ++ s) := by
  obtain ⟨x', w, y, rfl, hw, hx'⟩ := h
  exact ⟨x ++ x', w, y, by simp, hw, hx.append hx'⟩

end Text

namespace LineRule

theorem isMatch_bareExcept {content : List Char} :
    bareExcept.isMatch content = true ↔ Text.HasHandler content := Text.hasHandler_iff.symm

/-- The rule is about exactly the lines in which blanks and a colon follow `except` and no word
character stands before it. Any text that does not end in a word may stand in front of such a line,
whatever it holds of the word itself; and the rule is not about a line if each occurrence of
`except` in it has a word character before it or something else than blanks and a colon behind. -/
theorem isMatch_bareExcept_iff (s : String) :
    (bareExcept.isMatch s.toList = true ↔ ∃ x w y : String,
      s = x ++ "except" ++ w ++ ":" ++ y ∧ (∀ c ∈ w.toList, Text.isBlank c = true) ∧
        ∀ c ∈ x.toList.getLast?, Text.isWord c = false) ∧
    (∀ x : String, bareExcept.isMatch s.toList = true →
      (∀ c ∈ x.toList.getLast?, Text.isWord c = false) →
        bareExcept.isMatch (x ++ s).toList = true) ∧
    (bareExcept.isMatch s.toList = false ↔ ∀ x rest : String, s = x ++ "except" ++ rest →
      (∃ c ∈ x.toList.getLast?, Text.isWord c = true) ∨
        (rest.toList.dropWhile Text.isBlank).head? ≠ some ':') := by
  refine ⟨?_, fun x hs hx => ?_, ?_⟩
  · rw [isMatch_bareExcept]
    constructor
    · rintro ⟨x, w, y, hs, hw, hx⟩
      refine ⟨String.ofList x, String.ofList w, String.ofList y, ?_, by simpa using hw,
        by simpa using hx⟩
      rw [← String.toList_inj]
      simpa using hs
    · rintro ⟨x, w, y, rfl, hw, hx⟩
      exact ⟨x.toList, w.toList, y.toList, by simp, hw, hx⟩
  · rw [isMatch_bareExcept] at hs ⊢
    rw [String.toList_append]
    exact hs.append_left hx
  · rw [← Bool.not_eq_true, isMatch_bareExcept, Text.hasHandler_iff_occurrence]
    constructor
    · intro hno x rest hs
      by_contra hor
      obtain ⟨hx, hrest⟩ := not_or.1 hor
      refine hno ⟨x.toList, rest.toList, by simp [hs], fun c hc => ?_, not_not.1 hrest⟩
      exact Bool.eq_false_iff.2 fun hword => hx ⟨c, hc, hword⟩
    · rintro hall ⟨x, rest, hs, hx, hrest⟩
      have hs' : s = String.ofList x ++ "except" ++ String.ofList rest := by
        rw [← String.toList_inj]
        simpa using hs
      rcases hall _ _ hs' with ⟨c, hc, hword⟩ | hne
      · rw [String.toList_ofList] at hc
        simp [hx c hc] at hword
      · rw [String.toList_ofList] at hne
        exact hne hrest

end LineRule
end DiffReview
