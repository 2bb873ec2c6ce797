import DiffReview.Text.Line
import DiffReview.Text.Numeral

/-!
# Hunk headers

A hunk header is `@@ -s,m +n,k @@` followed by anything. It gives the first line and the number of
lines of the hunk in the old and in the new revision. A length that is left out is one.
-/

namespace DiffReview

/-- The numerals of one side of a hunk header, as written. -/
structure HunkSide where
  start : List Char
  length : Option (List Char)
deriving DecidableEq

/-- The numerals of a hunk header, as written. -/
structure HunkHeader where
  old : HunkSide
  new : HunkSide
deriving DecidableEq

namespace HunkSide

/-- The length that a side declares. -/
def lengthValue (side : HunkSide) : Except NumeralTooLong Nat :=
  match side.length with
  | none => .ok 1
  | some digits => Text.numeral digits

/-- Reads one side from the front of a text. A comma counts only when digits follow it. -/
def read (s : List Char) : Option (HunkSide × List Char) :=
  match s.takeWhile Text.isDigit, s.dropWhile Text.isDigit with
  | [], _ => none
  | start, ',' :: rest =>
    match rest.takeWhile Text.isDigit with
    | [] => some (⟨start, none⟩, ',' :: rest)
    | length => some (⟨start, some length⟩, rest.dropWhile Text.isDigit)
  | start, rest => some (⟨start, none⟩, rest)

end HunkSide

namespace HunkHeader

/-- The header that a line starts with. -/
def ofLine? (line : Line) : Option HunkHeader := do
  let rest ← ['@', '@', ' ', '-'].isPrefixOf? line
  let (old, rest) ← HunkSide.read rest
  let rest ← [' ', '+'].isPrefixOf? rest
  let (new, rest) ← HunkSide.read rest
  let _ ← [' ', '@', '@'].isPrefixOf? rest
  return ⟨old, new⟩

example : ofLine? "@@ -1,20 +3 @@ def f".toList =
    some ⟨⟨['1'], some ['2', '0']⟩, ⟨['3'], none⟩⟩ := by decide
example : ofLine? "@@ -1, +3 @@".toList = none := by decide

end HunkHeader
end DiffReview
