import DiffReview.Proofs.Service.Answer
import DiffReview.Wire.Decode

/-!
# The endpoints agree

A review can be had in two ways: from the review endpoint at once, or by sending the files that
the parsing endpoint answers to the analysing endpoint. Both ways give the same, and they fail on
the same texts with the same refusal but for the name of the endpoint.
-/

namespace DiffReview

/-- Two refusals of one status say the same, each under the name of its own endpoint. -/
inductive Refusal.SameBut (m n : String) : Refusal → Refusal → Prop
  | located (status : Nat) (text : String) (block : Json) :
    SameBut m n
      ⟨status, .obj [("message", .str ("[" ++ m ++ text)), ("block", block)]⟩
      ⟨status, .obj [("message", .str ("[" ++ n ++ text)), ("block", block)]⟩
  | plain (status : Nat) (text : String) :
    SameBut m n ⟨status, .str ("[" ++ m ++ text)⟩ ⟨status, .str ("[" ++ n ++ text)⟩

/-- A failed parse is refused alike by all endpoints. -/
theorem Trouble.sameBut_refusal (e : ParseFailure) (m n : String) :
    Refusal.SameBut m n ((ofParseFailure e).refusal m) ((ofParseFailure e).refusal n) := by
  have hplain : ∀ problem : Problem, Refusal.SameBut m n
      ((Trouble.unexpected problem).refusal m) ((Trouble.unexpected problem).refusal n) := by
    intro problem
    simpa [refusal, String.append_assoc] using Refusal.SameBut.plain (m := m) (n := n) 500
      ("] Exception <class '" ++ problem.kind ++ "'> occured during handling request: " ++
        problem.text)
  cases e with
  | rejected e =>
    simpa [ofParseFailure, refusal, String.append_assoc] using
      Refusal.SameBut.located (m := m) (n := n) 422 ("] Could not parse diff: " ++ e.message)
        (.str e.blockText)
  | numeral e => exact hplain _
  | lineNumberZero => exact hplain _

namespace FileChange

/-- The files that a written diff gives are read back by a request for their analysis. -/
theorem readFiles_map_toJson (files : List FileChange) :
    readFiles (.obj [("files", .arr (files.map toJson))]) = .ok files := by
  simp [readFiles, Wire.readObject, Wire.required, Wire.FieldName.find?, Wire.FieldName.plain,
    Wire.readList, Wire.readItems_map]

end FileChange

namespace Endpoint

/-- The three endpoints agree on every text. A review is answered exactly when the diff is, which
is when it can be read; if not, both are refused alike. If so, the review holds the parsed diff as
it was answered, and the analysis that is answered when the files of this diff are sent back. -/
theorem endpoints_agree (validator : Validator) {config : Config}
    (h : config.locale ∈ Locale.all.map Locale.name) (text : String) :
    ((∃ r, answerReview validator config text = .ok r) ↔ ∃ p, answerParse validator text = .ok p) ∧
    ((∃ p, answerParse validator text = .ok p) ↔ ∃ diff, ParsedDiff.parse text = .ok diff) ∧
    (∀ e e', answerParse validator text = .error e →
      answerReview validator config text = .error e' →
      Refusal.SameBut diffParse.name review.name e e') ∧
    (∀ p r, answerParse validator text = .ok p → answerReview validator config text = .ok r →
      r.get? "diff" = some p ∧
      ∃ diff files analysis, ParsedDiff.parse text = .ok diff ∧
        p.get? "files" = some files ∧ readFiles (.obj [("files", files)]) = .ok diff.files ∧
        r.get? "analysis" = some analysis ∧
        answerAnalyze validator config diff.files = .ok analysis) := by
  obtain ⟨engine, hengine⟩ := Config.exists_engine h
  cases hparse : ParsedDiff.parse text with
  | error e =>
    rw [answerParse_of_error hparse, answerReview_of_error hparse]
    refine ⟨by simp, by simp, ?_, by simp⟩
    rintro _ _ ⟨rfl⟩ ⟨rfl⟩
    exact Trouble.sameBut_refusal e _ _
  | ok diff =>
    rw [answerParse_of_ok hparse, answerReview_of_ok hengine hparse]
    refine ⟨by simp, by simp, by simp, ?_⟩
    rintro _ _ ⟨rfl⟩ ⟨rfl⟩
    refine ⟨rfl, diff, .arr (diff.files.map FileChange.toJson),
      (engine.evaluate diff.files).toJson, rfl, rfl, ?_, rfl, ?_⟩
    · exact FileChange.readFiles_map_toJson diff.files
    · exact answerAnalyze_of_engine hengine diff.files

/-- A diff that adds a call for debugging. -/
def debugged : String := "--- a/x.py\n+++ b/x.py\n@@ -1 +1,2 @@\n x\n+print(x)\n"

/-- What the diff with a call for debugging says. -/
def debuggedDiff : ParsedDiff :=
  ⟨[⟨"x.py", none, .modified, "Python", false,
    [⟨.context, "x", some 1⟩, ⟨.added, "print(x)", some 2⟩]⟩]⟩

/-- The endpoints agree on a diff in which there is something to find. -/
theorem endpoints_agree_debugged :
    ({} : Config).locale ∈ Locale.all.map Locale.name ∧ ∀ validator : Validator,
    answerParse validator debugged = .ok debuggedDiff.toJson ∧
    ∃ r analysis, answerReview validator {} debugged = .ok r ∧
      r.get? "diff" = some debuggedDiff.toJson ∧ r.get? "analysis" = some analysis ∧
      answerAnalyze validator {} debuggedDiff.files = .ok analysis := by
  have hlocale : ({} : Config).locale ∈ Locale.all.map Locale.name := by decide
  have hdiff : ParsedDiff.parse debugged = .ok debuggedDiff := rfl
  refine ⟨hlocale, fun validator => ?_⟩
  have hparse : answerParse validator debugged = _ := answerParse_of_ok hdiff
  obtain ⟨hiff, -, -, hfields⟩ := endpoints_agree validator hlocale debugged
  obtain ⟨r, hr⟩ := hiff.2 ⟨_, hparse⟩
  obtain ⟨hd, diff, files, analysis, hdiff', -, -, hanalysis, hanswer⟩ := hfields _ r hparse hr
  obtain rfl : debuggedDiff = diff := by simpa [hdiff] using hdiff'
  exact ⟨hparse, r, analysis, hr, hd, hanalysis, hanswer⟩

end Endpoint
end DiffReview
