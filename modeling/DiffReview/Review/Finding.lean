import DiffReview.Diff.FileChange

/-!
# Findings

A finding is one observation on a file, or on a line of it, of one of three severities. An analysis
is the findings on a diff in order, together with suggestions.
-/

namespace DiffReview

/-- How serious a finding is. -/
inductive Severity
  | info
  | warning
  | error
deriving DecidableEq

namespace Severity

def all : List Severity := [.info, .warning, .error]

def name : Severity → String
  | .info => "info"
  | .warning => "warning"
  | .error => "error"

/-- The place of a severity in the order from the least to the most severe. -/
def rank : Severity → Nat
  | .info => 0
  | .warning => 1
  | .error => 2

instance : LE Severity := ⟨fun a b => a.rank ≤ b.rank⟩
instance : LT Severity := ⟨fun a b => a.rank < b.rank⟩

instance (a b : Severity) : Decidable (a ≤ b) := inferInstanceAs (Decidable (a.rank ≤ b.rank))
instance (a b : Severity) : Decidable (a < b) := inferInstanceAs (Decidable (a.rank < b.rank))

/-- The name of a severity stands for it. -/
@[simp] theorem named?_name (s : Severity) : Text.named? all name s.name = some s := by
  cases s <;> rfl

/-- The severity of a name. -/
def ofName (name : String) : Except UnknownName Severity :=
  Text.named "Severity" all Severity.name name

end Severity

/-- The matter that a finding is about. -/
inductive IssueType
  | debugCode
  | security
  | codeQuality
  | errorHandling
  | codeReviewPractice
deriving DecidableEq

namespace IssueType

def all : List IssueType :=
  [.debugCode, .security, .codeQuality, .errorHandling, .codeReviewPractice]

def name : IssueType → String
  | .debugCode => "debug-code"
  | .security => "security"
  | .codeQuality => "code-quality"
  | .errorHandling => "error-handling"
  | .codeReviewPractice => "code-review-practice"

/-- The name of an issue type stands for it. -/
@[simp] theorem named?_name (t : IssueType) : Text.named? all name t.name = some t := by
  cases t <;> rfl

end IssueType

/-- One observation on a file; it has a line number when it is about one line. -/
structure Finding where
  filename : String
  lineNumber : Option LineNumber
  severity : Severity
  message : String
  type : IssueType
deriving DecidableEq

/-- The findings on a diff, in order, and suggestions. -/
structure Analysis where
  issues : List Finding
  suggestions : List String
deriving DecidableEq

namespace Analysis

/-- The issues from the most to the least severe; those of one severity keep their order. -/
def bySeverity (analysis : Analysis) : List Finding :=
  analysis.issues.mergeSort fun a b => b.severity ≤ a.severity

theorem bySeverity_perm (analysis : Analysis) : analysis.bySeverity.Perm analysis.issues :=
  List.mergeSort_perm ..

end Analysis

end DiffReview
