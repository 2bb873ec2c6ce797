import DiffReview.Text.Line

/-!
# Texts of whole lines

A text that is empty or ends with a newline is made of whole lines, and whatever follows it begins
a line of its own.
-/
namespace DiffReview.Text

/-- A text that is empty or ends with a newline. -/
def Whole (text : List Char) : Prop := text = [] ∨ text.getLast? = some '\n'

instance (text : List Char) : Decidable (Whole text) :=
  inferInstanceAs (Decidable (_ ∨ _))

theorem prepend_ne_nil (c : Char) (ls : List Line) : prepend c ls ≠ [] := by
  unfold prepend
  split
  · simp
  · split <;> simp

/-- A character goes to the first line, whatever lines follow that one. -/
theorem prepend_append (c : Char) {ls : List Line} (h : ls ≠ []) (ms : List Line) :
    prepend c (ls ++ ms) = prepend c ls ++ ms := by
  cases ls with
  | nil => exact absurd rfl h
  | cons l ls =>
    unfold prepend
    split <;> rfl

/-- The line that a newline ends goes no further. -/
theorem foldr_prepend_append {ls : List Line} (h : ls ≠ []) (text : List Char) (ms : List Line) :
    text.foldr prepend (ls ++ ms) = text.foldr prepend ls ++ ms := by
  induction text with
  | nil => rfl
  | cons c text ih =>
    have hne : text.foldr prepend ls ≠ [] := by
      cases text with
      | nil => exact h
      | cons d text => exact prepend_ne_nil d _
    rw [List.foldr_cons, ih, prepend_append c hne, List.foldr_cons]

/-- The lines of a text that follows whole lines are lines of their own. -/
theorem lines_append {first : List Char} (h : Whole first) (second : List Char) :
    lines (first ++ second) = lines first ++ lines second := by
  rcases h with rfl | h
  · rfl
  · obtain ⟨front, rfl⟩ := List.getLast?_eq_some_iff.1 h
    have hn (ls : List Line) : prepend '\n' ls = [[]] ++ ls := by simp [prepend]
    calc lines (front ++ ['\n'] ++ second)
        = front.foldr prepend ([[]] ++ lines second) := by simp [lines, hn]
      _ = front.foldr prepend [[]] ++ lines second := foldr_prepend_append (by simp) front _
      _ = lines (front ++ ['\n']) ++ lines second := by simp [lines, hn]

/-- A single line without its newline. -/
theorem lines_line {l : Line} (hl : l ≠ []) (h : '\n' ∉ l) : lines l = [l] := by
  induction l with
  | nil => exact absurd rfl hl
  | cons c l ih =>
    have hc : c ≠ '\n' := fun he => h (by simp [he])
    cases l with
    | nil => simp [prepend, hc]
    | cons d l =>
      rw [lines_cons, ih (by simp) (fun hm => h (by simp [hm]))]
      simp [prepend, hc]

/-- A text that is empty or goes on with a newline. -/
def Breaks (text : List Char) : Prop := text = [] ∨ text.head? = some '\n'

/-- A line between whole lines and the end of a line. -/
theorem lines_between {front back : List Char} {l : Line} (hf : Whole front) (hb : Breaks back)
    (hl : l ≠ []) (h : '\n' ∉ l) :
    lines (front ++ l ++ back) = lines front ++ l :: lines (back.drop 1) := by
  rw [List.append_assoc, lines_append hf]
  rcases hb with rfl | hb
  · rw [List.append_nil, lines_line hl h]
    rfl
  · obtain ⟨rest, rfl⟩ := List.head?_eq_some_iff.1 hb
    rw [lines_line_append l h]
    rfl

theorem whole_cons {c : Char} {text : List Char} (h : text ≠ []) :
    Whole (c :: text) ↔ Whole text := by
  cases text with
  | nil => exact absurd rfl h
  | cons d text => simp [Whole, List.getLast?_cons_cons]

/-- The lines of a text, each completed, make the text with its last line completed. -/
theorem join_lines (text : List Char) :
    join (lines text) = if Whole text then text else text ++ ['\n'] := by
  induction text with
  | nil => rfl
  | cons c text ih =>
    have hp (ls : List Line) (h : ls ≠ [] ∨ c = '\n') : join (prepend c ls) = c :: join ls := by
      unfold prepend
      split
      · simp_all
      · cases ls with
        | nil => simp_all
        | cons l ls => simp
    rw [lines_cons]
    cases text with
    | nil =>
      by_cases hc : c = '\n'
      · subst hc; rfl
      · simp [prepend, hc, Whole]
    | cons d text =>
      have hne : lines (d :: text) ≠ [] := prepend_ne_nil d _
      have hw : Whole (c :: d :: text) ↔ Whole (d :: text) := whole_cons (by simp)
      rw [hp _ (.inl hne), ih]
      by_cases hd : Whole (d :: text)
      · rw [if_pos hd, if_pos (hw.2 hd)]
      · rw [if_neg hd, if_neg (mt hw.1 hd)]
        rfl

/-- The characters of the lines are characters of the text. -/
theorem mem_of_mem_lines {text : List Char} {l : Line} {c : Char} (h : l ∈ lines text)
    (hc : c ∈ l) : c ∈ text := by
  have hne : c ≠ '\n' := fun he => newline_not_mem_of_mem_lines h (he ▸ hc)
  have hj : c ∈ join (lines text) :=
    List.mem_flatMap.2 ⟨l, h, List.mem_append_left _ hc⟩
  rw [join_lines] at hj
  split at hj
  · exact hj
  · simpa [hne] using hj

/-- Completed lines in front of a text are its first lines. -/
theorem lines_join_append {ls : List Line} (h : ∀ l ∈ ls, '\n' ∉ l) (text : List Char) :
    lines (join ls ++ text) = ls ++ lines text := by
  induction ls with
  | nil => rfl
  | cons l ls ih =>
    rw [List.forall_mem_cons] at h
    rw [join_cons, List.append_assoc, List.cons_append, lines_line_append l h.1, ih h.2]
    rfl

/-- A text starts with its first line. -/
theorem prefix_of_head?_lines {text : List Char} {l : Line} (h : (lines text).head? = some l) :
    l <+: text := by
  induction text generalizing l with
  | nil => simp at h
  | cons c text ih =>
    rw [lines_cons] at h
    unfold prepend at h
    split at h
    · cases h
      exact List.nil_prefix
    · split at h
      · cases h
        exact ⟨text, rfl⟩
      · rename_i hl
        cases h
        exact List.prefix_cons_inj c |>.2 (ih (by rw [hl]; rfl))

end DiffReview.Text
