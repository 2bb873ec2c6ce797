import DiffReview.Proofs.Patch.Bodies
import DiffReview.Diff.Parse

/-!
# Written diffs

A diff as its writer thinks of it: a list of entries, each for one file, with the hunks of the
change. An entry is written with a command line and the header lines that go with it, or with
nothing but the two path lines. The types carry what a writer has to obey, so every value of them
can be written.
-/
namespace DiffReview

/-- A text on one line. -/
abbrev OneLine := { text : List Char // '\n' ∉ text }

/-- A path as a command line can name it. -/
structure RelativePath where
  chars : List Char
  nonempty : chars ≠ []
  relative : chars.head? ≠ some '/'
  noTab : '\t' ∉ chars
  noNewline : '\n' ∉ chars
  noQuote : '"' ∉ chars

/-- A path that can stand last in a command line: nothing in it looks like the start of another
path. -/
structure LastPath extends RelativePath where
  noMark : ¬ [' ', 'b', '/'] <:+: chars

/-- What happens to a file. -/
inductive Alteration
  | modified (path : LastPath)
  | added (path : LastPath)
  | deleted (path : LastPath)
  | renamed (old : RelativePath) (new : LastPath) (ne : old.chars ≠ new.chars)

namespace Alteration

/-- The path before the alteration; that of an added file is the new one. -/
def oldPath : Alteration → RelativePath
  | .modified path => path.toRelativePath
  | .added path => path.toRelativePath
  | .deleted path => path.toRelativePath
  | .renamed old _ _ => old

/-- The path after the alteration; that of a deleted file is the old one. -/
def newPath : Alteration → LastPath
  | .modified path => path
  | .added path => path
  | .deleted path => path
  | .renamed _ new _ => new

def status : Alteration → FileStatus
  | .modified _ => .modified
  | .added _ => .added
  | .deleted _ => .deleted
  | .renamed _ _ _ => .renamed

/-- The name of the file in the end; empty if the file is deleted. -/
def filename : Alteration → String
  | .modified path => String.ofList path.chars
  | .added path => String.ofList path.chars
  | .deleted _ => ""
  | .renamed _ new _ => String.ofList new.chars

/-- The name that the file had, if it does not keep it. -/
def oldFilename : Alteration → Option String
  | .modified _ => none
  | .added _ => none
  | .deleted path => some (String.ofList path.chars)
  | .renamed old _ _ => some (String.ofList old.chars)

/-- The old side as path lines name it. -/
def oldSide (alteration : Alteration) : List Char :=
  match alteration with
  | .added _ => Patch.noFile
  | _ => ['a', '/'] ++ alteration.oldPath.chars

/-- The new side as path lines name it. -/
def newSide (alteration : Alteration) : List Char :=
  match alteration with
  | .deleted _ => Patch.noFile
  | _ => ['b', '/'] ++ alteration.newPath.chars

/-- Each side names no file, or the path below its root. -/
theorem sides_eq (alteration : Alteration) :
    (alteration.oldSide = Patch.noFile ∨
      alteration.oldSide = ['a', '/'] ++ alteration.oldPath.chars) ∧
    (alteration.newSide = Patch.noFile ∨
      alteration.newSide = ['b', '/'] ++ alteration.newPath.chars) := by
  cases alteration <;> simp [oldSide, newSide]

/-- A side holds no other characters than those of its path and of its root. -/
theorem not_mem_side {root c : Char} {side path : List Char}
    (hside : side = Patch.noFile ∨ side = [root, '/'] ++ path) (hc : c ∉ root :: Patch.noFile)
    (hp : c ∉ path) : c ∉ side := by
  obtain ⟨hroot, hfile⟩ := not_or.1 (mt List.mem_cons.2 hc)
  rcases hside with rfl | rfl
  · exact hfile
  · have hslash : c ≠ '/' := fun h => hfile (h ▸ List.mem_cons_self)
    simp [hroot, hslash, hp]

def sourceLine (alteration : Alteration) : Line := Mark.sourceMark ++ alteration.oldSide

def targetLine (alteration : Alteration) : Line := Mark.targetMark ++ alteration.newSide

def commandLine (alteration : Alteration) : Line :=
  "diff --git ".toList ++ (['a', '/'] ++ alteration.oldPath.chars) ++
    ' ' :: (['b', '/'] ++ alteration.newPath.chars)

end Alteration

/-- The header lines of which a reader takes no notice. -/
inductive Remark
  | oldMode
  | newMode
  | similarity
  | dissimilarity
  | renameFrom
  | renameTo
  | copyFrom
  | copyTo
  | index

/-- The start of a header line. -/
def Remark.mark : Remark → List Char
  | .oldMode => "old mode ".toList
  | .newMode => "new mode ".toList
  | .similarity => "similarity index ".toList
  | .dissimilarity => "dissimilarity index ".toList
  | .renameFrom => "rename from ".toList
  | .renameTo => "rename to ".toList
  | .copyFrom => "copy from ".toList
  | .copyTo => "copy to ".toList
  | .index => "index ".toList

/-- A header line of which a reader takes no notice. -/
structure RemarkLine where
  remark : Remark
  text : OneLine

def RemarkLine.line (l : RemarkLine) : Line := l.remark.mark ++ l.text.1

/-- A file mode. -/
abbrev FileMode := { digits : List Char // Heading.isMode digits = true }

/-- The lines between a command line and the path lines. -/
structure CommandHeader where
  before : List RemarkLine
  /-- The mode of the file, written only when the file comes or goes. -/
  mode : FileMode
  after : List RemarkLine

/-- The line that says that a file comes or goes. -/
def CommandHeader.modeLines (header : CommandHeader) : Alteration → List Line
  | .added _ => ["new file mode ".toList ++ header.mode.1]
  | .deleted _ => ["deleted file mode ".toList ++ header.mode.1]
  | _ => []

def CommandHeader.lines (header : CommandHeader) (alteration : Alteration) : List Line :=
  header.before.map RemarkLine.line ++ header.modeLines alteration ++
    header.after.map RemarkLine.line

namespace HunkSide

/-- The numerals of a side can be written: each is a run of digits. -/
def IsWritten (side : HunkSide) : Prop :=
  Heading.isMode side.start = true ∧ ∀ digits ∈ side.length, Heading.isMode digits = true

def write (side : HunkSide) : List Char :=
  side.start ++ (side.length.map fun digits => ',' :: digits).getD []

end HunkSide

/-- A hunk header, followed by a text that tells the reader where the hunk is. -/
def HunkHeader.write (header : HunkHeader) (title : List Char) : Line :=
  ['@', '@', ' ', '-'] ++ header.old.write ++ [' ', '+'] ++ header.new.write ++
    [' ', '@', '@'] ++ title

example : HunkHeader.write ⟨⟨['1'], none⟩, ⟨['3'], some ['2']⟩⟩ " def f".toList =
    "@@ -1 +3,2 @@ def f".toList := by decide

/-- The text of the note that a revision ends without a newline. -/
def BodyLine.noteMark : List Char := " No newline at end of file".toList

def BodyLine.write : BodyLine → Line
  | .added text => '+' :: text
  | .removed text => '-' :: text
  | .context text => ' ' :: text
  | .note text => '\\' :: text

/-- A line number, unless it is zero. -/
def lineNumber? (n : Nat) : Option LineNumber := if h : 0 < n then some ⟨n, h⟩ else none

namespace Hunk

/-- The change that a body line makes after the lines before it. Its number is that of the first
line of its revision, and one more for each line of that revision before it. A note makes none. -/
def change? (hunk : Hunk) (before : List BodyLine) : BodyLine → Option Change
  | .added text => some ⟨.added, String.ofList (Line.content text),
      lineNumber? (hunk.new.start + BodyLine.newLength before)⟩
  | .removed text => some ⟨.removed, String.ofList (Line.content text),
      lineNumber? (hunk.old.start + BodyLine.oldLength before)⟩
  | .context text => some ⟨.context, String.ofList (Line.content text),
      lineNumber? (hunk.old.start + BodyLine.oldLength before)⟩
  | .note _ => none

/-- The changes of a hunk, in order. -/
def changes (hunk : Hunk) : List Change :=
  (List.range hunk.body.length).filterMap fun i =>
    hunk.body[i]?.bind (hunk.change? (hunk.body.take i))

end Hunk

/-- A hunk with the numerals and the text of its header. -/
structure WrittenHunk where
  header : HunkHeader
  title : OneLine
  hunk : Hunk
  oldWritten : header.old.IsWritten
  newWritten : header.new.IsWritten
  oldSpan : header.old.span = .ok hunk.old
  newSpan : header.new.span = .ok hunk.new
  oldLength : BodyLine.oldLength hunk.body = hunk.old.length
  newLength : BodyLine.newLength hunk.body = hunk.new.length
  oldStart : hunk.old.length ≠ 0 → 1 ≤ hunk.old.start
  newStart : hunk.new.length ≠ 0 → 1 ≤ hunk.new.start
  nonempty : ∃ line ∈ hunk.body, line.isNote = false
  noNewline : ∀ line ∈ hunk.body, '\n' ∉ line.write
  notes : ∀ text, .note text ∈ hunk.body → BodyLine.noteMark <+: text

def WrittenHunk.lines (h : WrittenHunk) : List Line :=
  h.header.write h.title.1 :: h.hunk.body.map BodyLine.write

/-- A name in the notice that binary files differ. -/
structure BinaryName where
  chars : List Char
  nonempty : chars ≠ []
  noTab : '\t' ∉ chars
  noNewline : '\n' ∉ chars

/-- What comes after the header of a command line. -/
inductive Content
  | nothing
  | binary (old new : BinaryName)
  | hunks (hunks : List WrittenHunk)

/-- One file of a written diff. -/
inductive FileEntry
  | command (alteration : Alteration) (header : CommandHeader) (content : Content)
  | plain (alteration : Alteration) (hunks : List WrittenHunk)

namespace FileEntry

/-- The two path lines and the hunks. -/
def pathLines (alteration : Alteration) (hunks : List WrittenHunk) : List Line :=
  alteration.sourceLine :: alteration.targetLine :: hunks.flatMap WrittenHunk.lines

def contentLines (alteration : Alteration) : Content → List Line
  | .nothing => []
  | .binary old new =>
    ["Binary files ".toList ++ old.chars ++ " and ".toList ++ new.chars ++ " differ".toList]
  | .hunks hunks => pathLines alteration hunks

/-- The lines of an entry. -/
def lines : FileEntry → List Line
  | .command alteration header content =>
    alteration.commandLine :: header.lines alteration ++ contentLines alteration content
  | .plain alteration hunks => pathLines alteration hunks

def alteration : FileEntry → Alteration
  | .command alteration _ _ => alteration
  | .plain alteration _ => alteration

def hunks : FileEntry → List WrittenHunk
  | .command _ _ (.hunks hunks) => hunks
  | .command _ _ _ => []
  | .plain _ hunks => hunks

def isBinary : FileEntry → Bool
  | .command _ _ (.binary _ _) => true
  | _ => false

/-- The file change that an entry stands for. -/
def fileChange (entry : FileEntry) : FileChange where
  filename := entry.alteration.filename
  oldFilename := entry.alteration.oldFilename
  status := entry.alteration.status
  language := Language.ofPath entry.alteration.filename
  binary := entry.isBinary
  changes := entry.hunks.flatMap fun h => h.hunk.changes

/-- The entry ends in the header of a command line, so a path line after it would belong to it. -/
def endsInHeader : FileEntry → Bool
  | .command _ _ (.hunks _) => false
  | .command _ _ _ => true
  | .plain _ _ => false

/-- The entry begins with its path lines. -/
def isPlain : FileEntry → Bool
  | .command _ _ _ => false
  | .plain _ _ => true

/-- No plain entry comes directly after an entry that ends in its header. -/
def Separated (entries : List FileEntry) : Prop :=
  entries.IsChain fun entry next => ¬ (entry.endsInHeader = true ∧ next.isPlain = true)

/-- The text of a diff. -/
def render (entries : List FileEntry) : String :=
  String.ofList (Text.join (entries.flatMap lines))

end FileEntry
end DiffReview
