import DiffReview.Proofs.Diff.Failure
import DiffReview.Proofs.Service.Answer

/-!
# Answers to diffs whose headers can be used

The endpoints that parse a diff answer it, or point out the block that is not recognised, as long
as no hunk header of the diff has a numeral that is too long or lets lines start at zero. A header
of the latter kind is answered as an unexpected problem.
-/

namespace DiffReview

/-- A result was given, or the request was found at fault with a message and a block. -/
inductive Endpoint.Explained : Except Refusal Json → Prop
  | answered (result : Json) : Explained (.ok result)
  | unrecognised (message block : String) :
    Explained (.error ⟨422, .obj [("message", .str message), ("block", .str block)]⟩)

namespace Endpoint

/-- A diff whose hunk headers can be used is read or rejected, and the endpoints explain which. -/
theorem explained_of_headersUsable {text : String}
    (hu : Block.HeadersUsable (Text.lines text.toList)) :
    ((∃ diff, ParsedDiff.parse text = .ok diff) ∨
      ∃ e, ParsedDiff.parse text = .error (.rejected e)) ∧
    ∀ validator : Validator, Explained (answerParse validator text) ∧
      ∀ config : Config, config.locale ∈ Locale.all.map Locale.name →
        Explained (answerReview validator config text) := by
  have hparse := ParsedDiff.parse_ok_or_rejected hu
  refine ⟨hparse, fun validator => ?_⟩
  rcases hparse with ⟨diff, hd⟩ | ⟨e, he⟩
  · refine ⟨?_, fun config hlocale => ?_⟩
    · rw [answerParse_of_ok hd]
      exact .answered _
    · obtain ⟨engine, hengine⟩ := Config.exists_engine hlocale
      rw [answerReview_of_ok hengine hd]
      exact .answered _
  · refine ⟨?_, fun config _ => ?_⟩
    · rw [answerParse_of_error he]
      exact .unrecognised _ _
    · rw [answerReview_of_error he]
      exact .unrecognised _ _

/-- A hunk that is longer than its header declares, which can be used. -/
def overfull : String := "--- a/x\n+++ b/x\n@@ -0,0 +1 @@\n+a\n+b\n"

/-- A hunk that is too long is rejected, and explained with its block. -/
theorem explained_overfull :
    Block.HeadersUsable (Text.lines overfull.toList) ∧
    (∀ diff, ParsedDiff.parse overfull ≠ .ok diff) ∧
    (∃ e, ParsedDiff.parse overfull = .error (.rejected e)) ∧
    ∀ validator : Validator, Explained (answerParse validator overfull) ∧
      Explained (answerReview validator {} overfull) := by
  have hu : Block.HeadersUsable (Text.lines overfull.toList) := by decide
  have hno : ∀ diff, ParsedDiff.parse overfull ≠ .ok diff := nofun
  obtain ⟨hparse, hexplained⟩ := explained_of_headersUsable hu
  refine ⟨hu, hno, hparse.resolve_left fun ⟨diff, hd⟩ => hno diff hd, fun validator => ?_⟩
  obtain ⟨hanswer, hreview⟩ := hexplained validator
  exact ⟨hanswer, hreview {} (by decide)⟩

/-- A hunk of which one side has a line and starts at zero. -/
def zeroStart : String := "--- a/x\n+++ b/x\n@@ -0,1 +1 @@\n-a\n+b\n"

/-- A hunk that starts at zero is neither read nor rejected, and answered as a problem of the
service. -/
theorem not_explained_zeroStart :
    ParsedDiff.parse zeroStart = .error .lineNumberZero ∧ ∀ validator : Validator,
    (∃ detail, answerParse validator zeroStart = .error ⟨500, detail⟩) ∧
    (∃ detail, answerReview validator {} zeroStart = .error ⟨500, detail⟩) ∧
    ¬ Explained (answerParse validator zeroStart) ∧
    ¬ Explained (answerReview validator {} zeroStart) := by
  have hparse : ParsedDiff.parse zeroStart = .error .lineNumberZero := rfl
  refine ⟨hparse, fun validator => ?_⟩
  have hp : answerParse validator zeroStart = _ := answerParse_of_error hparse
  have hr : answerReview validator {} zeroStart = _ := answerReview_of_error hparse
  refine ⟨⟨_, hp⟩, ⟨_, hr⟩, ?_, ?_⟩
  · rw [hp]
    nofun
  · rw [hr]
    nofun

end Endpoint
end DiffReview
