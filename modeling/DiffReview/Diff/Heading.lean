import DiffReview.Diff.Mark
import DiffReview.Diff.HunkHeader
import DiffReview.Text.Classes

/-!
# Headings of a block

Outside hunk bodies a line of a block is a heading: it names files, gives a file mode, starts a
hunk, or is a notice. Where a line can be cut into two paths in several ways, the last cut is
taken; a notice about binary files is cut as early as possible.
-/

namespace DiffReview

/-- What a line of a block says outside hunk bodies. Paths stand as written. -/
inductive Heading
  | command (source target : List Char)
  | newFile
  | deletedFile
  | source (path : List Char)
  | target (path : List Char)
  | hunk (header : HunkHeader)
  | note
  | empty
  | binary (source : List Char) (target : Option (List Char))
  | binaryPatch
  | other
deriving DecidableEq

namespace Heading

/-- The part of a text before its first tab. -/
def untilTab (s : List Char) : List Char := s.takeWhile (· ≠ '\t')

/-- The last cut at a space whose parts pass their tests, in a text of which the part before the
place is given in reverse and the part after it in order. -/
def lastCutBefore? (front back : List Char → Bool) :
    List Char → List Char → Option (List Char × List Char)
  | [], _ => none
  | c :: before, after =>
    if c = ' ' && back after && front before.reverse then some (before.reverse, after)
    else lastCutBefore? front back before (c :: after)

/-- The last cut at a space whose parts pass their tests. -/
def lastCut? (front back : List Char → Bool) (s : List Char) : Option (List Char × List Char) :=
  lastCutBefore? front back s.reverse []

theorem eq_of_lastCutBefore? {front back : List Char → Bool} {before after l r : List Char}
    (h : lastCutBefore? front back before after = some (l, r)) :
    before.reverse ++ after = l ++ ' ' :: r ∧ front l = true ∧ back r = true := by
  induction before generalizing after with
  | nil => simp [lastCutBefore?] at h
  | cons c before ih =>
    rw [lastCutBefore?] at h
    split at h
    · simp_all
    · simpa using ih h

/-- A cut gives the text back, and its parts pass their tests. -/
theorem eq_of_lastCut? {front back : List Char → Bool} {s l r : List Char}
    (h : lastCut? front back s = some (l, r)) :
    s = l ++ ' ' :: r ∧ front l = true ∧ back r = true := by
  simpa using eq_of_lastCutBefore? h

/-- A path below a root of one letter, which may stand after a quote. -/
def isBelow (root : Char) : List Char → Bool
  | '"' :: c :: '/' :: _ :: _ => c = root
  | c :: '/' :: _ :: _ => c = root
  | _ => false

/-- The two paths of a command line, when they are below `a/` and `b/`. -/
def rootedPaths? (s : List Char) : Option (List Char × List Char) :=
  lastCut? (isBelow 'a') (isBelow 'b') (untilTab s)

def schemeMark : List Char := [':', '/', '/']

/-- A text that holds `://` with a character after it. -/
def hasLocation : List Char → Bool
  | [] => false
  | c :: s => (schemeMark.isPrefixOf (c :: s) && 3 ≤ s.length) || hasLocation s

/-- A text that ends in a location: `://` and then at least one character, none of them a tab. -/
def endsInLocation (s : List Char) : Bool := hasLocation (Text.afterLast '\t' s)

/-- The text up to the end of its last location. -/
def throughLocation? : List Char → Option (List Char)
  | [] => none
  | c :: s =>
    match throughLocation? s with
    | some t => some (c :: t)
    | none =>
      match schemeMark.isPrefixOf? (c :: s) with
      | some rest => if untilTab rest = [] then none else some (schemeMark ++ untilTab rest)
      | none => none

/-- The two paths of a command line, when they are locations. -/
def locations? (s : List Char) : Option (List Char × List Char) :=
  match lastCut? endsInLocation (fun t => (throughLocation? t).isSome) s with
  | some (old, rest) => (throughLocation? rest).map fun new => (old, new)
  | none => none

/-- The two paths of a command line, when they are any two words. -/
def plainPaths? (s : List Char) : Option (List Char × List Char) :=
  lastCut? (· ≠ []) (· ≠ []) (untilTab s)

/-- The two paths of a command line. -/
def paths? (s : List Char) : Option (List Char × List Char) :=
  rootedPaths? s <|> locations? s <|> plainPaths? s

/-- A nonempty run of digits and nothing else. -/
def isMode (s : List Char) : Bool := s ≠ [] && s.all Text.isDigit

/-- The characters of a time stamp. -/
def isStampChar (c : Char) : Bool :=
  Text.isBlank c || c.isDigit || c = ':' || c = '+' || c = '-'

/-- Passes over the time stamp that a tab begins. The space that ends it is left. -/
def skipStamp? : List Char → Option (List Char)
  | '\t' :: s =>
    match (s.takeWhile isStampChar).reverse with
    | ' ' :: _ :: _ => some (' ' :: s.dropWhile isStampChar)
    | _ => none
  | s => some s

/-- The shortest name of at least one character, free of tabs, that is followed by an accepted
text. The characters read so far are kept in reverse. -/
def shortestName? {α : Type} (accept : List Char → Option α) (taken : List Char) :
    List Char → Option (List Char × α)
  | [] => none
  | c :: s =>
    if c = '\t' then none
    else match accept s with
      | some a => some ((c :: taken).reverse, a)
      | none => shortestName? accept (c :: taken) s

/-- The second name of a notice about binary files, up to its end. -/
def secondName? (s : List Char) : Option (List Char) :=
  let ending := fun s => (skipStamp? s).bind fun s => if Line.differs s then some () else none
  (shortestName? ending [] s).map (·.1)

/-- What may follow the first name of a notice about binary files. -/
def afterName? (s : List Char) : Option (Option (List Char)) :=
  (skipStamp? s).bind fun s =>
    match " and ".toList.isPrefixOf? s with
    | some s => (secondName? s).map some
    | none => if Line.differs s then some none else none

/-- The names of a notice about binary files. -/
def binaryNames? (line : Line) : Option (List Char × Option (List Char)) :=
  (Line.afterBinary? line).bind (shortestName? afterName? [])

/-- The heading that a line is. -/
def ofLine (line : Line) : Heading :=
  if line = [] then .empty
  else if Line.startsWith line "diff --git ".toList then
    match paths? (line.drop 11) with
    | some (old, new) => .command old new
    | none => .other
  else if Line.startsWith line "new file mode ".toList then
    if isMode (line.drop 14) then .newFile else .other
  else if Line.startsWith line "deleted file mode ".toList then
    if isMode (line.drop 18) then .deletedFile else .other
  else if Line.startsWith line Mark.sourceMark then .source (untilTab (line.drop 4))
  else if Line.startsWith line Mark.targetMark then .target (untilTab (line.drop 4))
  else if Line.startsWith line ['@', '@'] then
    match HunkHeader.ofLine? line with
    | some header => .hunk header
    | none => .other
  else if Line.startsWith line "\\ No newline at end of file".toList then .note
  else if line = "GIT binary patch".toList then .binaryPatch
  else match binaryNames? line with
    | some (old, new) => .binary old new
    | none => .other

example : ofLine "diff --git a/x y b/x y".toList = .command "a/x y".toList "b/x y".toList := by
  decide
example : ofLine "Binary files a/x and b/y differ".toList =
    .binary "a/x".toList (some "b/y".toList) := by decide +kernel

end Heading
end DiffReview
