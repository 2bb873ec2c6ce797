import DiffReview.Proofs.Wire.Written
import DiffReview.Service.Endpoint

/-!
# What the endpoints answer

The results of the endpoints keep their contracts, since an engine makes every suggestion once.
So the check of a result never refuses one, and each answer is either the written form of a result
or the refusal that a failed parse makes, under the name of the endpoint.
-/

namespace DiffReview

/-- An engine makes every suggestion once. -/
theorem Engine.nodup_suggestions (engine : Engine) (files : List FileChange) :
    (engine.evaluate files).suggestions.Nodup := nodup_eraseDups _

/-- A configuration whose language has messages makes an engine. -/
theorem Config.exists_engine {config : Config}
    (h : config.locale ∈ Locale.all.map Locale.name) : ∃ engine, config.engine {} = .ok engine := by
  obtain ⟨locale, -, hname⟩ := List.mem_map.1 h
  simp [Config.engine, EngineOptions.localeName, ← hname]

namespace Endpoint

variable {validator : Validator} {config : Config} {engine : Engine} {text : String}

theorem answer_of_accepts {endpoint : Endpoint} {value : Json}
    (h : endpoint.contract.accepts value) : endpoint.answer validator (.ok value) = .ok value := by
  simp [answer, keepContract, h]

theorem answerParse_of_ok {diff : ParsedDiff} (h : ParsedDiff.parse text = .ok diff) :
    answerParse validator text = .ok diff.toJson := by
  rw [answerParse, h]
  exact answer_of_accepts diff.accepts_toJson

theorem answerParse_of_error {e : ParseFailure} (h : ParsedDiff.parse text = .error e) :
    answerParse validator text = .error ((Trouble.ofParseFailure e).refusal diffParse.name) := by
  rw [answerParse, h]
  rfl

theorem answerReview_of_ok (hengine : config.engine {} = .ok engine) {diff : ParsedDiff}
    (h : ParsedDiff.parse text = .ok diff) :
    answerReview validator config text =
      .ok (Review.toJson ⟨diff, engine.evaluate diff.files⟩) := by
  rw [answerReview, Review.runConfigured, h, hengine]
  exact answer_of_accepts (Review.accepts_toJson (engine.nodup_suggestions diff.files))

/-- The diff is parsed before the language of the configuration matters. -/
theorem answerReview_of_error {e : ParseFailure} (h : ParsedDiff.parse text = .error e) :
    answerReview validator config text =
      .error ((Trouble.ofParseFailure e).refusal review.name) := by
  rw [answerReview, Review.runConfigured, h]
  rfl

theorem answerAnalyze_of_engine (hengine : config.engine {} = .ok engine)
    (files : List FileChange) :
    answerAnalyze validator config files = .ok (engine.evaluate files).toJson := by
  rw [answerAnalyze, hengine]
  exact answer_of_accepts (Analysis.accepts_toJson_iff.2 (engine.nodup_suggestions files))

end Endpoint
end DiffReview
