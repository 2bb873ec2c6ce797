import DiffReview.Review.Engine
import DiffReview.Wire.Scalar

/-!
# Reading values of the domain

A field may be given under its name in camel case or in snake case; the former wins. Fields that
are not known are passed over, so totals sent along with a file change have no effect. A field
that is missing gets its default, or is a flaw of the object.
-/

namespace DiffReview

namespace Wire

variable {α : Type}

/-- The two names of a field. -/
structure FieldName where
  camel : String
  snake : String
deriving DecidableEq

/-- A field whose names are equal. -/
def FieldName.plain (name : String) : FieldName := ⟨name, name⟩

/-- The field that is given, under the name under which it is given. -/
def FieldName.find? (name : FieldName) (fields : List (String × Json)) : Option (String × Json) :=
  match Json.field? fields name.camel with
  | some v => some (name.camel, v)
  | none => (Json.field? fields name.snake).map fun v => (name.snake, v)

/-- Reads a field that must be given. -/
def required (fields : List (String × Json)) (name : FieldName) (read : Json → Checked α) :
    Checked α :=
  match name.find? fields with
  | some (key, v) => (read v).under (.field key)
  | none => .flawed [⟨[.field name.camel], .missing, .obj fields⟩]

/-- Reads a field that has a default. -/
def withDefault (fields : List (String × Json)) (name : FieldName) (absent : α)
    (read : Json → Checked α) : Checked α :=
  match name.find? fields with
  | some (key, v) => (read v).under (.field key)
  | none => .ok absent

/-- Reads the items of a list, counting from an index. -/
def readItems (read : Json → Checked α) (i : Nat) : List Json → Checked (List α)
  | [] => .ok []
  | v :: vs => (((read v).under (.index i)).map List.cons).app (readItems read (i + 1) vs)

/-- Items that are each read back from their written form are read back together. -/
theorem readItems_map {read : Json → Checked α} {write : α → Json}
    (h : ∀ a, read (write a) = .ok a) (i : Nat) (as : List α) :
    readItems read i (as.map write) = .ok as := by
  induction as generalizing i with
  | nil => rfl
  | cons a as ih => simp [readItems, h, ih]

def readList (read : Json → Checked α) : Json → Checked (List α)
  | .arr items => readItems read 0 items
  | v => .flawed [⟨[], .notList, v⟩]

/-- Reads the fields of an object. -/
def readObject (model : String) (read : List (String × Json) → Checked α) : Json → Checked α
  | .obj fields => read fields
  | v => .flawed [⟨[], .notObject model, v⟩]

/-- Reads a line number that may be null. -/
def readLineNumber : Json → Checked (Option LineNumber)
  | .null => .ok none
  | v =>
    match readInt v with
    | .flawed flaws => .flawed flaws
    | .ok n =>
      if h : 0 < n.toNat then .ok (some ⟨n.toNat, h⟩) else .flawed [⟨[], .notPositive, v⟩]

def lineNumberField : FieldName := ⟨"lineNumber", "line_number"⟩

end Wire

open Wire

namespace Change

def read : Json → Checked Change :=
  readObject "ChangeLine" fun fields =>
    (((required fields (.plain "kind") (readMember ChangeKind.all ChangeKind.name)).map
      Change.mk).app (required fields (.plain "content") readString)).app
      (withDefault fields lineNumberField none readLineNumber)

end Change

namespace FileChange

def read : Json → Checked FileChange :=
  readObject "FileChange" fun fields =>
    ((((((required fields (.plain "filename") readString).map FileChange.mk).app
      (withDefault fields ⟨"oldFilename", "old_filename"⟩ none readOptionalString)).app
      (withDefault fields (.plain "status") .modified
        (readMember FileStatus.all FileStatus.name))).app
      (withDefault fields (.plain "language") Language.unknown readString)).app
      (withDefault fields (.plain "binary") false readBool)).app
      (withDefault fields (.plain "changes") [] (readList Change.read))

end FileChange

namespace Finding

def read : Json → Checked Finding :=
  readObject "Finding" fun fields =>
    (((((required fields (.plain "filename") readString).map Finding.mk).app
      (withDefault fields lineNumberField none readLineNumber)).app
      (required fields (.plain "severity") (readMember Severity.all Severity.name))).app
      (required fields (.plain "message") readString)).app
      (required fields (.plain "type") (readMember IssueType.all IssueType.name))

end Finding

namespace Analysis

def read : Json → Checked Analysis :=
  readObject "Analysis" fun fields =>
    ((withDefault fields (.plain "issues") [] (readList Finding.read)).map Analysis.mk).app
      (withDefault fields (.plain "suggestions") [] (readList readString))

end Analysis

namespace ParsedDiff

/-- The totals of a diff are computed from its files and never read. -/
def read : Json → Checked ParsedDiff :=
  readObject "ParsedDiff" fun fields =>
    (withDefault fields (.plain "files") [] (readList FileChange.read)).map ParsedDiff.mk

end ParsedDiff

namespace Review

def read : Json → Checked Review :=
  readObject "Review" fun fields =>
    ((required fields (.plain "diff") ParsedDiff.read).map Review.mk).app
      (required fields (.plain "analysis") Analysis.read)

end Review

/-- Reads the files of a request for an analysis. -/
def readFiles : Json → Checked (List FileChange) :=
  readObject "AnalyzeRequest" fun fields =>
    required fields (.plain "files") (readList FileChange.read)

/-- Reads the diff of a request. -/
def readDiffContent : Json → Checked String :=
  readObject "DiffRequest" fun fields =>
    required fields ⟨"diffContent", "diff_content"⟩ readString

end DiffReview
