import DiffReview.Diff.FileChange
import DiffReview.Diff.HunkHeader

/-!
# Hunks

A hunk is two spans of lines and a body. The body lines are numbered by a single pass: a removed
line advances the old revision, an added line the new one, a context line both, and a note about a
missing newline neither. Context lines carry the number of the old revision.
-/

namespace DiffReview

/-- A line of a hunk body without its marker. -/
inductive BodyLine
  | added (text : List Char)
  | removed (text : List Char)
  | context (text : List Char)
  | note (text : List Char)
deriving DecidableEq

namespace BodyLine

/-- Reads a body line. An empty line, and one that starts with a carriage return, is an empty
context line. -/
def ofLine? : Line → Option BodyLine
  | [] => some (.context [])
  | c :: text =>
    if c = '+' then some (.added text)
    else if c = '-' then some (.removed text)
    else if c = ' ' then some (.context text)
    else if c = '\\' then some (.note text)
    else if c = '\r' then some (.context [])
    else none

/-- The number of lines of the old revision that a body line stands for. -/
def oldWidth : BodyLine → Nat
  | .added _ => 0
  | .removed _ => 1
  | .context _ => 1
  | .note _ => 0

/-- The number of lines of the new revision that a body line stands for. -/
def newWidth : BodyLine → Nat
  | .added _ => 1
  | .removed _ => 0
  | .context _ => 1
  | .note _ => 0

/-- The number of lines of the old revision in a body. -/
def oldLength : List BodyLine → Nat
  | [] => 0
  | line :: body => line.oldWidth + oldLength body

/-- The number of lines of the new revision in a body. -/
def newLength : List BodyLine → Nat
  | [] => 0
  | line :: body => line.newWidth + newLength body

@[simp] theorem oldLength_cons (line : BodyLine) (body : List BodyLine) :
    oldLength (line :: body) = line.oldWidth + oldLength body := rfl

@[simp] theorem newLength_cons (line : BodyLine) (body : List BodyLine) :
    newLength (line :: body) = line.newWidth + newLength body := rfl

end BodyLine

/-- Consecutive lines of a revision. -/
structure Span where
  start : Nat
  length : Nat
deriving DecidableEq

namespace HunkSide

/-- The span that a side of a header declares. -/
def span (side : HunkSide) : Except NumeralTooLong Span :=
  match Text.numeral side.start, side.lengthValue with
  | .error e, _ => .error e
  | _, .error e => .error e
  | .ok start, .ok length => .ok ⟨start, length⟩

end HunkSide

/-- A hunk whose body is read. -/
structure Hunk where
  old : Span
  new : Span
  body : List BodyLine
deriving DecidableEq

/-- A change whose number may still be zero. -/
structure Numbered where
  kind : ChangeKind
  content : List Char
  number : Nat
deriving DecidableEq

namespace Numbered

/-- Numbers body lines, given the next line of each revision. -/
def ofBody (old new : Nat) : List BodyLine → List Numbered
  | [] => []
  | .added text :: rest => ⟨.added, Line.content text, new⟩ :: ofBody old (new + 1) rest
  | .removed text :: rest => ⟨.removed, Line.content text, old⟩ :: ofBody (old + 1) new rest
  | .context text :: rest =>
    ⟨.context, Line.content text, old⟩ :: ofBody (old + 1) (new + 1) rest
  | .note _ :: rest => ofBody old new rest

/-- The numbers go on across a cut of a body. -/
theorem ofBody_append (old new : Nat) (first second : List BodyLine) :
    ofBody old new (first ++ second) = ofBody old new first ++
      ofBody (old + BodyLine.oldLength first) (new + BodyLine.newLength first) second := by
  induction first generalizing old new with
  | nil => simp [ofBody, BodyLine.oldLength, BodyLine.newLength]
  | cons line first ih =>
    cases line <;>
      simp [ofBody, ih, BodyLine.oldWidth, BodyLine.newWidth, Nat.add_assoc]

/-- The change, unless its number is zero. -/
def change? (n : Numbered) : Option Change :=
  if h : 0 < n.number then some ⟨n.kind, String.ofList n.content, some ⟨n.number, h⟩⟩ else none

end Numbered

namespace Hunk

/-- The changes of a hunk with their numbers. -/
def numbered (hunk : Hunk) : List Numbered :=
  Numbered.ofBody hunk.old.start hunk.new.start hunk.body

end Hunk

/-- A hunk whose body is being read. -/
structure OpenHunk where
  old : Span
  new : Span
  /-- Lines of the old revision still to come. -/
  oldLeft : Nat
  /-- Lines of the new revision still to come. -/
  newLeft : Nat
  /-- The body lines read so far, newest first. -/
  taken : List BodyLine
deriving DecidableEq

namespace OpenHunk

/-- A hunk of which nothing but the header is read. -/
def ofHeader (header : HunkHeader) : Except NumeralTooLong OpenHunk :=
  match header.old.span, header.new.span with
  | .error e, _ => .error e
  | _, .error e => .error e
  | .ok old, .ok new => .ok ⟨old, new, old.length, new.length, []⟩

/-- Takes a body line, unless that makes a side longer than declared. -/
def take (hunk : OpenHunk) (line : BodyLine) : Option OpenHunk :=
  if line.oldWidth ≤ hunk.oldLeft ∧ line.newWidth ≤ hunk.newLeft then
    some { hunk with
      oldLeft := hunk.oldLeft - line.oldWidth
      newLeft := hunk.newLeft - line.newWidth
      taken := line :: hunk.taken }
  else none

/-- A line is taken when both sides have room for it, and leaves them that much shorter. -/
theorem take_eq_some_iff {hunk later : OpenHunk} {line : BodyLine} :
    hunk.take line = some later ↔
      hunk.oldLeft = line.oldWidth + later.oldLeft ∧
      hunk.newLeft = line.newWidth + later.newLeft ∧
      later.taken = line :: hunk.taken ∧ later.old = hunk.old ∧ later.new = hunk.new := by
  unfold take
  split
  · rename_i h
    rw [Option.some.injEq]
    constructor
    · rintro rfl
      exact ⟨by simp only; omega, by simp only; omega, rfl, rfl, rfl⟩
    · rintro ⟨ho, hn, ht, hold, hnew⟩
      cases later
      simp only at ho hn ht hold hnew
      simp only [OpenHunk.mk.injEq]
      exact ⟨hold.symm, hnew.symm, by omega, by omega, ht.symm⟩
  · rename_i h
    simp only [reduceCtorEq, false_iff]
    rintro ⟨ho, hn, -⟩
    exact h ⟨by omega, by omega⟩

/-- Nothing is still to come on either side. -/
def isComplete (hunk : OpenHunk) : Bool := hunk.oldLeft = 0 && hunk.newLeft = 0

/-- The hunk that has been read. -/
def close (hunk : OpenHunk) : Hunk := ⟨hunk.old, hunk.new, hunk.taken.reverse⟩

end OpenHunk
end DiffReview
