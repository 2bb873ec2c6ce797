import DiffReview.Proofs.Diff.PathEnds
import DiffReview.Service.CommandLine
import DiffReview.Service.Endpoint

/-!
# Line ends of a request

The command line unifies line ends before it reads a diff; an endpoint takes the text as it is. So a
diff with carriage returns at the ends of its lines means the same to the command line, but to an
endpoint only if no heading of the diff is exposed. The hunks are told alike in any case; but where
a path goes on to the end of its line, the file has the carriage return in its name.
-/
namespace DiffReview

namespace Endpoint

/-- A diff without carriage returns is given them. The command line sees no difference, and the text
splits into blocks that end alike. If the text is still a diff, its files have the same changes; but
a file whose block names the new path up to the end of the line, as a writer commonly does, has a
name that ends in a carriage return. If no heading is exposed it is the same diff, and the endpoints
answer as before. -/
theorem answers_crlf {text : List Char} {diff : ParsedDiff} (ht : '\r' ∉ text)
    (h : ParsedDiff.parse (String.ofList text) = .ok diff) :
    Outcome.ofInput (String.ofList (Text.crlf text)) = Outcome.ofInput (String.ofList text) ∧
    (∃ blocks others, Block.split (String.ofList text) = .ok blocks ∧
      Block.split (String.ofList (Text.crlf text)) = .ok others ∧
      List.Forall₂ Block.EndsAlike blocks others ∧
      ∀ other, ParsedDiff.parse (String.ofList (Text.crlf text)) = .ok other →
        List.Forall₂ (fun file file' => file'.changes = file.changes) diff.files other.files ∧
        (Text.Whole text → List.Forall₂ (fun block file' => Block.NamesToEnd block →
          file'.filename.toList.getLast? = some '\r') blocks other.files)) ∧
    ((∀ line ∈ (Scan.ofLines (Text.lines text)).headings, line.isExposed = false) →
      ParsedDiff.parse (String.ofList (Text.crlf text)) = .ok diff ∧ ∀ validator : Validator,
      answerParse validator (String.ofList (Text.crlf text)) =
        answerParse validator (String.ofList text) ∧
      ∀ config, answerReview validator config (String.ofList (Text.crlf text)) =
        answerReview validator config (String.ofList text)) := by
  refine ⟨?_, ?_, fun hx => ?_⟩
  · simp only [Outcome.ofInput, String.toList_ofList, Text.unifyNewlines_crlf ht,
      Text.unifyNewlines_of_not_mem ht]
  · obtain ⟨blocks, hs, -⟩ := ParsedDiff.parse_eq_ok_iff.1 h
    obtain ⟨others, hs', ha⟩ := Block.split_crlf ht hs
    refine ⟨blocks, others, hs, hs', ha, fun other h' => ?_⟩
    exact ⟨ParsedDiff.changes_of_parse_crlf ht h h',
      fun hw => ParsedDiff.getLast?_filename_of_parse_crlf ht hw hs h'⟩
  · have hp := ParsedDiff.parse_crlf_of_not_isExposed ht h hx
    refine ⟨hp, fun validator => ⟨?_, fun config => ?_⟩⟩
    · rw [answerParse, answerParse, h, hp]
    · rw [answerReview, answerReview, Review.runConfigured, Review.runConfigured, h, hp]

/-- A diff whose path lines end in time stamps. -/
def stamped : List Char :=
  "--- a/x.py\t2001-02-03\n+++ b/x.py\t2001-02-03\n@@ -1 +1 @@ f\n-a\n+b\n".toList

/-- What the path lines and the hunk say. -/
def stampedDiff : ParsedDiff :=
  ⟨[⟨"x.py", none, .modified, "Python", false,
    [⟨.removed, "a", some 1⟩, ⟨.added, "b", some 1⟩]⟩]⟩

/-- The diff with time stamps is the same with carriage returns. -/
theorem answers_crlf_stamped : '\r' ∉ stamped ∧
    ParsedDiff.parse (String.ofList stamped) = .ok stampedDiff ∧
    (∀ line ∈ (Scan.ofLines (Text.lines stamped)).headings, line.isExposed = false) ∧
    ParsedDiff.parse (String.ofList (Text.crlf stamped)) = .ok stampedDiff ∧
    ∀ validator : Validator, answerParse validator (String.ofList (Text.crlf stamped)) =
      answerParse validator (String.ofList stamped) := by
  have ht : '\r' ∉ stamped := by decide
  have hp : ParsedDiff.parse (String.ofList stamped) = .ok stampedDiff := rfl
  have hx : ∀ line ∈ (Scan.ofLines (Text.lines stamped)).headings, line.isExposed = false := by
    decide
  obtain ⟨-, -, hsame⟩ := answers_crlf ht hp
  exact ⟨ht, hp, hx, (hsame hx).1, fun validator => ((hsame hx).2 validator).1⟩

/-- The same diff without time stamps. -/
def bare : List Char := "--- a/x.py\n+++ b/x.py\n@@ -1 +1 @@\n-a\n+b\n".toList

/-- What it is read as with carriage returns. -/
def bareReturned : ParsedDiff :=
  ⟨[⟨"x.py\r", none, .modified, "Unknown", false,
    [⟨.removed, "a", some 1⟩, ⟨.added, "b", some 1⟩]⟩]⟩

/-- Without time stamps the carriage return goes into the name, and the language is lost. -/
theorem not_same_of_crlf :
    ParsedDiff.parse (String.ofList bare) = .ok stampedDiff ∧
    ParsedDiff.parse (String.ofList (Text.crlf bare)) = .ok bareReturned ∧
    ¬ ∀ (text : List Char) (diff : ParsedDiff), '\r' ∉ text →
      ParsedDiff.parse (String.ofList text) = .ok diff →
      ParsedDiff.parse (String.ofList (Text.crlf text)) = .ok diff := by
  have hp : ParsedDiff.parse (String.ofList bare) = .ok stampedDiff := rfl
  have hp' : ParsedDiff.parse (String.ofList (Text.crlf bare)) = .ok bareReturned := rfl
  refine ⟨hp, hp', fun hall => ?_⟩
  have hsame := hall bare stampedDiff (by decide) hp
  rw [hp'] at hsame
  exact absurd (Except.ok.inj hsame) (by decide)

end Endpoint
end DiffReview
