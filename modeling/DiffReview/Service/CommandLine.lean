import DiffReview.Json.Printer
import DiffReview.Service.Refusal
import DiffReview.Wire.Encode

/-!
# The command line

One run reads a diff and prints its review under the default configuration. A diff that is not
recognised is reported with its block. Any other problem is left to end the run, also one that
comes up when the review is printed. Line ends are unified in a file that is read, but not on
standard input.
-/

namespace DiffReview

/-- What a run leaves behind. -/
structure Outcome where
  exitCode : Nat
  stdout : String
  stderr : String
deriving DecidableEq

namespace Outcome

/-- The outcome of a run on a text that is no diff. -/
def report (message block : String) : Outcome :=
  ⟨1, "", "Could not parse diff: " ++ message ++ "\n\n" ++ block ++ "\n"⟩

/-- The outcome of a run that a problem ends. Of the trace that is shown, this is the last line. -/
def ofProblem (problem : Problem) : Outcome :=
  ⟨1, "", problem.kind ++ ": " ++ problem.text ++ "\n"⟩

/-- The outcome of a run on a text, unless a problem ends the run. -/
def run (text : String) : Except Problem Outcome :=
  match Review.runConfigured {} text with
  | .error (.parse (.rejected e)) => .ok (report e.message e.blockText)
  | .error (.parse (.numeral e)) => .error (.value e.message)
  | .error (.parse .lineNumberZero) => .error .lineNumberZero
  | .error (.locale e) => .error (.value e.message)
  | .ok review =>
    match review.toJson.toIndentedText with
    | .error e => .error (.value e.message)
    | .ok printed => .ok ⟨0, printed ++ "\n", ""⟩

/-- The outcome of a run on a text as it is given on standard input. -/
def ofText (text : String) : Outcome :=
  match run text with
  | .ok outcome => outcome
  | .error problem => ofProblem problem

/-- The outcome of a run on a file, in which line ends of any kind are read as newlines. -/
def ofInput (content : String) : Outcome :=
  ofText (String.ofList (Text.unifyNewlines content.toList))

end Outcome
end DiffReview
