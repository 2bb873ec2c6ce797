import DiffReview.Text.Line
import DiffReview.Text.Quoted

/-!
# Changes of files

A diff is a list of file changes, and a file change is a list of changes, one for each line of a
hunk: its kind, its content without the marker, and its number in the revision that it belongs to.
The language of a file follows from the extension of its name. Counts of added and removed lines are
computed from the changes and never stored, so they cannot disagree with them.
-/

namespace DiffReview

namespace Language

/-- The language of a file whose extension is not known. -/
def unknown : String := "Unknown"

/-- Extensions and their languages. -/
def table : List (String × String) :=
  [("js", "JavaScript"), ("ts", "TypeScript"), ("py", "Python"), ("java", "Java"), ("rb", "Ruby"),
   ("go", "Go"), ("php", "PHP"), ("cs", "C#"), ("cpp", "C++"), ("c", "C")]

/-- The extension of a path, if its base name holds a point. -/
def extension? (path : String) : Option String :=
  let base := Text.afterLast '/' path.toList
  if '.' ∈ base then some (String.ofList (Text.afterLast '.' base)) else none

/-- The language of the file at a path. -/
def ofPath (path : String) : String :=
  match extension? path with
  | none => unknown
  | some extension => (table.lookup extension).getD unknown

example : ofPath "src/dir.x/file.py" = "Python" ∧ ofPath "src.py/file" = "Unknown" := by decide

end Language

/-- How a line of a hunk stands to the two revisions. -/
inductive ChangeKind
  | added
  | removed
  | context
deriving DecidableEq

namespace ChangeKind

def all : List ChangeKind := [.added, .removed, .context]

def name : ChangeKind → String
  | .added => "added"
  | .removed => "removed"
  | .context => "context"

/-- The name of a kind stands for it. -/
@[simp] theorem named?_name (k : ChangeKind) : Text.named? all name k.name = some k := by
  cases k <;> rfl

end ChangeKind

/-- Lines are numbered from one. -/
abbrev LineNumber := { n : Nat // 0 < n }

/-- Every numeral but zero is a line number. -/
instance (n : Nat) : OfNat LineNumber (n + 1) := ⟨⟨n + 1, Nat.succ_pos n⟩⟩

/-- One line of a hunk. -/
structure Change where
  kind : ChangeKind
  content : String
  lineNumber : Option LineNumber
deriving DecidableEq

/-- What happened to a file. -/
inductive FileStatus
  | added
  | deleted
  | modified
  | renamed
deriving DecidableEq

namespace FileStatus

def all : List FileStatus := [.added, .deleted, .modified, .renamed]

def name : FileStatus → String
  | .added => "added"
  | .deleted => "deleted"
  | .modified => "modified"
  | .renamed => "renamed"

/-- The name of a status stands for it. -/
@[simp] theorem named?_name (s : FileStatus) : Text.named? all name s.name = some s := by
  cases s <;> rfl

end FileStatus

/-- What a diff says about one file. The file name is empty for a deleted file. -/
structure FileChange where
  filename : String
  oldFilename : Option String
  status : FileStatus
  language : String
  binary : Bool
  changes : List Change
deriving DecidableEq

namespace FileChange

/-- The number of changes of a kind. -/
def count (file : FileChange) (kind : ChangeKind) : Nat :=
  file.changes.countP (·.kind = kind)

def additions (file : FileChange) : Nat := file.count .added

def deletions (file : FileChange) : Nat := file.count .removed

/-- The added lines, in order. -/
def added (file : FileChange) : List Change :=
  file.changes.filter (·.kind = .added)

theorem additions_eq_length_added (file : FileChange) :
    file.additions = file.added.length := List.countP_eq_length_filter

end FileChange

/-- Totals over the files of a diff. -/
structure Summary where
  totalFiles : Nat
  totalAdditions : Nat
  totalDeletions : Nat
deriving DecidableEq

/-- The file changes of a diff, in order. -/
structure ParsedDiff where
  files : List FileChange
deriving DecidableEq

namespace ParsedDiff

/-- The totals of a diff. -/
def summary (diff : ParsedDiff) : Summary where
  totalFiles := diff.files.length
  totalAdditions := (diff.files.map FileChange.additions).foldr (· + ·) 0
  totalDeletions := (diff.files.map FileChange.deletions).foldr (· + ·) 0

end ParsedDiff

end DiffReview
