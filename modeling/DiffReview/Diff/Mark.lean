import DiffReview.Text.Line

/-!
# Marks of lines

What the first characters of a line say about its place in a diff. Inside a hunk body only the
first character counts; outside, a line is told by the mark at its start.
-/

namespace DiffReview

namespace Line

/-- A line starts with the characters of a mark. -/
def startsWith (line : Line) (mark : List Char) : Bool := mark.isPrefixOf line

/-- A line that can stand in a hunk body: a blank one, or one that starts with a marker. -/
def isBody : Line → Bool
  | [] => true
  | c :: rest => c = ' ' || c = '+' || c = '-' || c = '\\' || isBlank (c :: rest)

/-- The number of lines of the old revision that a body line stands for. -/
def oldWidth : Line → Nat
  | '+' :: _ => 0
  | '\\' :: _ => 0
  | _ => 1

/-- The number of lines of the new revision that a body line stands for. -/
def newWidth : Line → Nat
  | '-' :: _ => 0
  | '\\' :: _ => 0
  | _ => 1

/-- The ends of the notice about binary files. -/
def differs (s : List Char) : Bool :=
  " differ".toList.isPrefixOf s || " has changed".toList.isPrefixOf s

/-- A text that has such an end after at least one character. -/
def differsLater : List Char → Bool
  | [] => false
  | _ :: rest => differs rest || differsLater rest

/-- What follows `Binary file` or `Binary files` and a space. -/
def afterBinary? (line : Line) : Option (List Char) :=
  match "Binary file".toList.isPrefixOf? line with
  | some ('s' :: ' ' :: rest) => some rest
  | some (' ' :: rest) => some rest
  | _ => none

/-- A notice that binary files differ. -/
def isBinaryNotice (line : Line) : Bool :=
  match afterBinary? line with
  | some rest => differsLater rest
  | none => false

/-- The line `--` or `-- ` in front of the signature of a patch. -/
def isSignature (line : Line) : Bool :=
  let s := content line
  s = ['-', '-'] || s = ['-', '-', ' ']

theorem exists_of_startsWith {line : Line} {mark : List Char} (h : startsWith line mark = true) :
    ∃ rest, line = mark ++ rest := by
  obtain ⟨rest, rfl⟩ := List.isPrefixOf_iff_prefix.1 h
  exact ⟨rest, rfl⟩

theorem isBody_of_isBlank {line : Line} (h : isBlank line = true) : isBody line = true := by
  cases line with
  | nil => rfl
  | cons c rest => simp [isBody, h]

/-- A signature starts with the marker of a removed line. -/
theorem isBody_of_isSignature {line : Line} (h : isSignature line = true) :
    isBody line = true := by
  have hc : ∃ rest, content line = '-' :: rest := by
    rcases (by simpa [isSignature] using h : _ ∨ _) with hc | hc <;> exact ⟨_, hc⟩
  obtain ⟨rest, hc⟩ := hc
  obtain ⟨back, rfl⟩ : '-' :: rest <+: line := hc ▸ Text.trimEnd_prefix _ line
  rfl

end Line

/-- The mark at the start of a line outside hunk bodies. -/
inductive Mark
  | note
  | hunk
  | command
  | source
  | target
  | binary
  | other
deriving DecidableEq

namespace Mark

def sourceMark : List Char := ['-', '-', '-', ' ']

def targetMark : List Char := ['+', '+', '+', ' ']

/-- The mark at the start of a line. -/
def ofLine (line : Line) : Mark :=
  if Line.startsWith line ['\\'] then .note
  else if Line.startsWith line ['@', '@'] then .hunk
  else if Line.startsWith line ['d', 'i', 'f', 'f', ' '] then .command
  else if Line.startsWith line sourceMark then .source
  else if Line.startsWith line targetMark then .target
  else if Line.isBinaryNotice line then .binary
  else .other

example : ofLine "--- a/x".toList = .source ∧ ofLine "-- x".toList = .other := by decide
example : ofLine "Binary files a and b differ".toList = .binary := by decide

end Mark
end DiffReview
