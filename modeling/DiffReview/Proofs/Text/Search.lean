import DiffReview.Proofs.Traversal
import DiffReview.Text.Classes

/-!
# What the searches find

A search is described by how the text that it finds something in is put together. A bare handler is
the word `except`, blanks and a colon, and no word character stands right before it. A comment is
two slashes that only blanks stand before.
-/
namespace DiffReview.Text

/-- A bare exception handler stands somewhere in the text. -/
def HasHandler (s : List Char) : Prop :=
  ∃ x w y, s = x ++ "except".toList ++ w ++ ':' :: y ∧ (∀ c ∈ w, isBlank c = true) ∧
    ∀ c ∈ x.getLast?, isWord c = false

/-- The text begins with a comment, blanks aside. -/
def BeginsComment (s : List Char) : Prop :=
  ∃ w y, s = w ++ '/' :: '/' :: y ∧ ∀ c ∈ w, isBlank c = true

/-- What follows the leading blanks begins with a word that does not begin with a blank exactly if
the text is blanks, the word, and some rest. -/
theorem cons_prefix_dropWhile_iff {p : Char → Bool} {c : Char} {word s : List Char}
    (hc : p c = false) :
    c :: word <+: s.dropWhile p ↔ ∃ w y, s = w ++ c :: (word ++ y) ∧ ∀ d ∈ w, p d = true := by
  constructor
  · rintro ⟨y, hy⟩
    refine ⟨s.takeWhile p, y, ?_, fun d hd => List.all_eq_true.1 List.all_takeWhile d hd⟩
    rw [← List.cons_append, hy, List.takeWhile_append_dropWhile]
  · rintro ⟨w, y, rfl, hw⟩
    rw [List.dropWhile_append_of_pos hw, List.dropWhile_cons_of_neg (by simp [hc])]
    exact ⟨y, rfl⟩

theorem beginsComment_iff {s : List Char} :
    BeginsComment s ↔ ['/', '/'].isPrefixOf (s.dropWhile isBlank) = true := by
  rw [List.isPrefixOf_iff_prefix, cons_prefix_dropWhile_iff (by decide)]
  rfl

/-- A handler at the front is the word, blanks and a colon. -/
theorem startsHandler_iff {s : List Char} : startsHandler s = true ↔
    ∃ w y, s = "except".toList ++ w ++ ':' :: y ∧ ∀ c ∈ w, isBlank c = true := by
  have hcolon (rest : List Char) : (rest.dropWhile isBlank).head? = some ':' ↔
      ∃ w y, rest = w ++ ':' :: y ∧ ∀ c ∈ w, isBlank c = true := by
    rw [← List.singleton_prefix_iff_head?_eq_some, cons_prefix_dropWhile_iff (by decide)]
    rfl
  unfold startsHandler
  split
  · rename_i rest h
    rw [List.isPrefixOf?_eq_some_iff_append_eq] at h
    subst h
    simp only [List.append_assoc, List.append_cancel_left_eq]
    rw [decide_eq_true_iff, hcolon]
  · rename_i h
    simp only [Bool.false_eq_true, false_iff]
    rintro ⟨w, y, rfl, -⟩
    rw [List.append_assoc, isPrefixOf?_append] at h
    cases h

/-- The search tries every place of the text that no word character stands before. -/
theorem handlerOccurs_iff {afterWord : Bool} {s : List Char} :
    handlerOccurs afterWord s = true ↔
      ∃ x rest, s = x ++ rest ∧ startsHandler rest = true ∧
        x.getLast?.elim afterWord isWord = false := by
  induction s generalizing afterWord with
  | nil =>
    simp only [handlerOccurs, Bool.false_eq_true, false_iff]
    rintro ⟨x, rest, hs, h, -⟩
    obtain ⟨-, rfl⟩ := List.append_eq_nil_iff.1 hs.symm
    cases h
  | cons c s ih =>
    have hlast (x : List Char) : (c :: x).getLast?.elim afterWord isWord =
        x.getLast?.elim (isWord c) isWord := by
      rw [List.getLast?_cons]
      cases x.getLast? <;> rfl
    simp only [handlerOccurs, Bool.or_eq_true, Bool.and_eq_true, Bool.not_eq_true', ih]
    constructor
    · rintro (⟨hafter, h⟩ | ⟨x, rest, rfl, h, hx⟩)
      · exact ⟨[], c :: s, rfl, h, hafter⟩
      · exact ⟨c :: x, rest, rfl, h, (hlast x).trans hx⟩
    · rintro ⟨x, rest, hs, h, hx⟩
      cases x with
      | nil =>
        subst hs
        exact .inl ⟨hx, h⟩
      | cons d x =>
        obtain ⟨rfl, rfl⟩ := List.cons.inj hs
        exact .inr ⟨x, rest, rfl, h, (hlast x).symm.trans hx⟩

theorem hasHandler_iff {s : List Char} : HasHandler s ↔ hasBareHandler s = true := by
  have hfront (x : List Char) :
      x.getLast?.elim false isWord = false ↔ ∀ c ∈ x.getLast?, isWord c = false := by
    cases x.getLast? <;> simp
  rw [hasBareHandler, handlerOccurs_iff]
  simp only [startsHandler_iff, hfront, HasHandler, List.append_assoc]
  constructor
  · rintro ⟨x, w, y, hs, hw, hx⟩
    exact ⟨x, _, hs, ⟨w, y, rfl, hw⟩, hx⟩
  · rintro ⟨x, rest, hs, ⟨w, y, rfl, hw⟩, hx⟩
    exact ⟨x, w, y, hs, hw, hx⟩

instance (s : List Char) : Decidable (HasHandler s) := decidable_of_iff _ hasHandler_iff.symm

instance (s : List Char) : Decidable (BeginsComment s) := decidable_of_iff _ beginsComment_iff.symm

end DiffReview.Text
