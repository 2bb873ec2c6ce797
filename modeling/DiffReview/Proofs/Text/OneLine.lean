import DiffReview.Text.Line
import Mathlib.Data.List.Induction

/-!
# Texts of one line

A text of at most one line has no newline but at its end. Put in front of an empty line and a text
that does not begin with a newline, it can be told from what comes behind it.
-/
namespace DiffReview.Text

/-- At most one line, with its newline or without. -/
def OneLine (cs : List Char) : Prop := '\n' ∉ cs.dropLast

theorem OneLine.of_not_mem {cs : List Char} (h : '\n' ∉ cs) : OneLine cs :=
  fun hm => h (List.dropLast_subset cs hm)

theorem oneLine_append {front cs : List Char} (hf : '\n' ∉ front) (h : OneLine cs) :
    OneLine (front ++ cs) := by
  rw [OneLine, List.dropLast_append]
  split
  · exact OneLine.of_not_mem hf
  · intro hm
    rcases List.mem_append.1 hm with hm | hm
    · exact hf hm
    · exact h hm

theorem oneLine_completed {line : Line} (h : '\n' ∉ line) : OneLine (line ++ ['\n']) := by
  simpa [OneLine] using h

/-- One line is free of newlines, but for one at its end. -/
theorem OneLine.exists_line {cs : List Char} (h : OneLine cs) :
    ∃ line, '\n' ∉ line ∧ (cs = line ∨ cs = line ++ ['\n']) := by
  cases cs using List.reverseRecOn with
  | nil => exact ⟨[], by simp, .inl rfl⟩
  | append_singleton line c =>
    rw [OneLine, List.dropLast_concat] at h
    by_cases hc : c = '\n'
    · exact ⟨line, h, .inr (by rw [hc])⟩
    · refine ⟨line ++ [c], ?_, .inl rfl⟩
      simp [h, Ne.symm hc]

/-- A text is cut at its first newline in one way. -/
theorem eq_of_append_newline {line line' s s' : List Char} (h : '\n' ∉ line) (h' : '\n' ∉ line')
    (he : line ++ '\n' :: s = line' ++ '\n' :: s') : line = line' ∧ s = s' := by
  induction line generalizing line' with
  | nil =>
    cases line' with
    | nil => exact ⟨rfl, (List.cons.inj he).2⟩
    | cons c line' =>
      obtain ⟨rfl, -⟩ := List.cons.inj he
      exact absurd List.mem_cons_self h'
  | cons c line ih =>
    cases line' with
    | nil =>
      obtain ⟨rfl, -⟩ := List.cons.inj he
      exact absurd List.mem_cons_self h
    | cons d line' =>
      obtain ⟨rfl, hrest⟩ := List.cons.inj he
      obtain ⟨rfl, rfl⟩ := ih (fun hm => h (List.mem_cons_of_mem _ hm))
        (fun hm => h' (List.mem_cons_of_mem _ hm)) hrest
      exact ⟨rfl, rfl⟩

/-- One line, an empty line and a text that does not begin with a newline are told apart. -/
theorem eq_of_append_emptyLine {cs cs' s s' : List Char} (h : OneLine cs) (h' : OneLine cs')
    (hs : s.head? ≠ some '\n') (hs' : s'.head? ≠ some '\n')
    (he : cs ++ '\n' :: '\n' :: s = cs' ++ '\n' :: '\n' :: s') : cs = cs' ∧ s = s' := by
  obtain ⟨line, hline, hcs⟩ := h.exists_line
  obtain ⟨line', hline', hcs'⟩ := h'.exists_line
  rcases hcs with rfl | rfl <;> rcases hcs' with rfl | rfl
  · obtain ⟨rfl, hrest⟩ := eq_of_append_newline hline hline' he
    exact ⟨rfl, (List.cons.inj hrest).2⟩
  · obtain ⟨-, hrest⟩ := eq_of_append_newline hline hline' (by simpa using he)
    simp [(List.cons.inj hrest).2] at hs
  · obtain ⟨-, hrest⟩ := eq_of_append_newline hline hline' (by simpa using he)
    simp [← (List.cons.inj hrest).2] at hs'
  · obtain ⟨rfl, hrest⟩ := eq_of_append_newline hline hline' (by simpa using he)
    exact ⟨rfl, (List.cons.inj (List.cons.inj hrest).2).2⟩

theorem newline_not_mem_toString (n : Nat) : '\n' ∉ (toString n).toList := by
  rw [Nat.toString_eq_repr, Nat.toList_repr]
  intro hm
  cases Nat.isDigit_of_mem_toDigits (by decide) (by decide) hm

end DiffReview.Text
