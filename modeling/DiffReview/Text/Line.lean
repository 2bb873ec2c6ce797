/-!
# Lines of a text

Only a newline ends a line; form feeds, carriage returns and the other separators are ordinary
characters of it. A line is kept without its newline, so that completing the lines of a text and
joining them gives the text back, with a final newline added when it has none.
-/

namespace DiffReview

/-- The characters of one line, without the newline that ends it. -/
abbrev Line := List Char

namespace Text

/-- Puts one character in front of a text whose lines are known. -/
def prepend (c : Char) (ls : List Line) : List Line :=
  if c = '\n' then [] :: ls
  else match ls with
    | [] => [[c]]
    | l :: rest => (c :: l) :: rest

/-- The lines of a text. What follows the last newline is a line only if it is not empty. -/
def lines (text : List Char) : List Line :=
  text.foldr prepend []

/-- The text made of the given lines, each completed with a newline. -/
def join (ls : List Line) : List Char :=
  ls.flatMap (· ++ ['\n'])

@[simp] theorem lines_nil : lines [] = [] := rfl

@[simp] theorem lines_cons (c : Char) (text : List Char) :
    lines (c :: text) = prepend c (lines text) := rfl

@[simp] theorem join_nil : join [] = [] := rfl

@[simp] theorem join_cons (l : Line) (ls : List Line) :
    join (l :: ls) = l ++ '\n' :: join ls := by simp [join]

theorem join_append (ls ms : List Line) : join (ls ++ ms) = join ls ++ join ms := by
  simp [join]

/-- A completed line in front of a text adds exactly that line. -/
theorem lines_line_append (l : Line) (h : '\n' ∉ l) (text : List Char) :
    lines (l ++ '\n' :: text) = l :: lines text := by
  induction l with
  | nil => simp [prepend]
  | cons c l ih =>
    have hc : c ≠ '\n' := fun he => h (by simp [he])
    have hl : '\n' ∉ l := fun hm => h (by simp [hm])
    simp [ih hl, prepend, hc]

/-- Lines free of newlines are read back from the text that they make. -/
theorem lines_join (ls : List Line) (h : ∀ l ∈ ls, '\n' ∉ l) : lines (join ls) = ls := by
  induction ls with
  | nil => rfl
  | cons l ls ih =>
    rw [join_cons, lines_line_append l (h l (by simp))]
    rw [ih (fun m hm => h m (by simp [hm]))]

/-- The lines of a text are free of newlines. -/
theorem newline_not_mem_of_mem_lines {text : List Char} {l : Line} (h : l ∈ lines text) :
    '\n' ∉ l := by
  induction text generalizing l with
  | nil => simp at h
  | cons c text ih =>
    rw [lines_cons] at h
    unfold prepend at h
    split at h
    · rcases List.mem_cons.1 h with rfl | h
      · simp
      · exact ih h
    · rename_i hc
      generalize lines text = ls at h ih
      cases ls with
      | nil => simp_all [eq_comm]
      | cons m rest =>
        rcases List.mem_cons.1 h with rfl | h
        · have hm := ih List.mem_cons_self
          simp [hm, eq_comm, hc]
        · exact ih (List.mem_cons_of_mem _ h)

/-- The characters of a list without those at its end that satisfy a test. -/
def trimEnd (p : Char → Bool) (cs : List Char) : List Char :=
  (cs.reverse.dropWhile p).reverse

theorem trimEnd_prefix (p : Char → Bool) (cs : List Char) : trimEnd p cs <+: cs := by
  rw [← List.reverse_suffix, trimEnd, List.reverse_reverse]
  exact List.dropWhile_suffix p

/-- What follows the last occurrence of a mark, or everything if there is none. -/
def afterLast (mark : Char) (cs : List Char) : List Char :=
  (cs.reverse.takeWhile (· ≠ mark)).reverse

/-- Replaces the two-character line end and the lone carriage return by a newline. -/
def unifyNewlines : List Char → List Char
  | [] => []
  | '\r' :: '\n' :: cs => '\n' :: unifyNewlines cs
  | '\r' :: cs => '\n' :: unifyNewlines cs
  | c :: cs => c :: unifyNewlines cs

end Text

namespace Line

/-- A blank line holds nothing but carriage returns. -/
def isBlank (line : Line) : Bool := line.all (· = '\r')

/-- The line without the carriage returns at its end. -/
def content (line : Line) : List Char := Text.trimEnd (· = '\r') line

/-- The line as a string, completed with its newline. -/
def completed (line : Line) : String := String.ofList (line ++ ['\n'])

end Line
end DiffReview
