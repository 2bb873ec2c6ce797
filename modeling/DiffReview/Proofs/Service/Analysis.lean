import DiffReview.Proofs.Review.AddedLines
import DiffReview.Proofs.Service.Agreement
import DiffReview.Proofs.Wire.Recounted
import DiffReview.Service.Route

/-!
# Requests for an analysis

What going through a checklist of built-in rules suggests, and that it can always be answered: no
check fails, no suggestion is made twice, and so the answer keeps its contract. The answer depends
on nothing but the names, the languages and the added lines of the files that are sent.
-/

namespace DiffReview

/-- The request for an analysis that has a body. -/
def Request.analyze (body : Json) : Request := ⟨"POST", "/api/v1/diff/analyze", some body⟩

theorem respond_analyze (validator : Validator) (config : Config) {body : Json}
    {files : List FileChange} (h : readFiles body = .ok files) :
    respond validator config (.analyze body) =
      .ofAnswer (Endpoint.answerAnalyze validator config files) := by
  have hroute : Route.ofPath? "/api/v1/diff/analyze" = some .diffAnalyze := by decide
  rw [respond]
  simp [Request.analyze, hroute, Route.method, Route.respond, Response.withBody, h]

namespace Checklist

/-- Going through a checklist of built-in rules succeeds. Each suggestion is made once, is one of
those that a file gives rise to, and stands where it is first given rise to. So the analysis keeps
the contract, and, as an engine goes through such a checklist, every request for an analysis is
answered as long as the language of the configuration has messages. -/
theorem suggestions_of_run (list : Checklist WordedRule) (files : List FileChange) :
    (∃ analysis, list.run WordedRule.check files = .ok analysis ∧
      analysis.suggestions.Nodup ∧
      (∀ s, s ∈ analysis.suggestions ↔ ∃ file ∈ files,
        (∃ chapter, list.chapters.lookup file.language = some chapter ∧
          s ∈ chapter.suggestions) ∨
        ∃ (locale : Locale) (threshold : Int), .large locale threshold ∈ list.rules file ∧
          threshold < file.additions ∧ s = Message.splitLargeChanges.text locale "") ∧
      (analysis.suggestions.Pairwise fun s t =>
        (files.flatMap list.offers).idxOf s < (files.flatMap list.offers).idxOf t) ∧
      Contract.analysis.accepts analysis.toJson) ∧
    (∀ engine : Engine,
      engine.checklist.run WordedRule.check files = .ok (engine.evaluate files)) ∧
    ∀ (validator : Validator) (config : Config), config.locale ∈ Locale.all.map Locale.name →
      ∀ body, readFiles body = .ok files → ∃ engine, config.engine {} = .ok engine ∧
        Endpoint.answerAnalyze validator config files = .ok (engine.evaluate files).toJson ∧
        respond validator config (.analyze body) = ⟨200, (engine.evaluate files).toJson⟩ := by
  refine ⟨⟨_, list.run_worded files, ?_⟩, fun engine => engine.run_checklist files, ?_⟩
  · have hnodup := nodup_eraseDups (files.flatMap list.offers)
    refine ⟨hnodup, fun s => ?_, pairwise_idxOf_eraseDups _, Analysis.accepts_toJson_iff.2 hnodup⟩
    simp only [Analysis.ofOffers, List.mem_eraseDups, List.mem_flatMap, mem_offers]
  · intro validator config hlocale body hbody
    obtain ⟨engine, hengine⟩ := Config.exists_engine hlocale
    have hanswer : Endpoint.answerAnalyze validator config files = _ :=
      Endpoint.answerAnalyze_of_engine hengine files
    refine ⟨engine, hengine, hanswer, ?_⟩
    rw [respond_analyze validator config hbody, hanswer]
    rfl

/-- A checklist in two languages that repeats itself. -/
def mixed : Checklist WordedRule where
  chapters := [("Python", ⟨[.lines [(.en, .printCall)], .large .zh 0],
    ["Format the code", "Use type hints", "Format the code"]⟩)]
  common := [.large .en 0, .large .zh 1]

/-- The files that the checklist in two languages is gone through for, as they are sent. -/
def sent : Json := .obj [("files", .arr ([script, notes].map FileChange.toJson))]

/-- A checklist in two languages makes each of its suggestions once, and the files are answered. -/
theorem suggestions_of_run_mixed :
    ({} : Config).locale ∈ Locale.all.map Locale.name ∧ readFiles sent = .ok [script, notes] ∧
    (∃ analysis, mixed.run WordedRule.check [script, notes] = .ok analysis ∧
      analysis.suggestions = ["Format the code", "Use type hints",
        Message.splitLargeChanges.text .zh "", Message.splitLargeChanges.text .en ""] ∧
      analysis.suggestions.Nodup ∧ Contract.analysis.accepts analysis.toJson) ∧
    ∀ validator : Validator, ∃ engine, ({} : Config).engine {} = .ok engine ∧
      respond validator {} (.analyze sent) =
        ⟨200, (engine.evaluate [script, notes]).toJson⟩ := by
  have hlocale : ({} : Config).locale ∈ Locale.all.map Locale.name := by decide
  have hread : readFiles sent = .ok [script, notes] := FileChange.readFiles_map_toJson _
  obtain ⟨⟨analysis, hrun, hnodup, -, -, haccepts⟩, -, hanswer⟩ :=
    suggestions_of_run mixed [script, notes]
  refine ⟨hlocale, hread, ⟨analysis, hrun, ?_, hnodup, haccepts⟩, fun validator => ?_⟩
  · cases hrun
    decide
  · obtain ⟨engine, hengine, -, hrespond⟩ := hanswer validator {} hlocale sent hread
    exact ⟨engine, hengine, hrespond⟩

/-- The analysis sees only added lines. Files that have the same names, languages and added lines
make the same of every checklist of built-in rules and of every engine, and requests that send them
are answered alike. So are requests whose files differ at most in the totals that are sent along:
they are read as the same files. -/
theorem sees_added_lines (list : Checklist WordedRule) {xs ys : List FileChange}
    (h : List.Forall₂ FileChange.SameAdded xs ys) :
    (∃ analysis, list.run WordedRule.check xs = .ok analysis ∧
      list.run WordedRule.check ys = .ok analysis) ∧
    (∀ engine : Engine, engine.evaluate xs = engine.evaluate ys) ∧
    (∀ validator config body body', readFiles body = .ok xs → readFiles body' = .ok ys →
      respond validator config (.analyze body) = respond validator config (.analyze body')) ∧
    ∀ validator config body body', Json.SameButTotals body body' → readFiles body = .ok xs →
      readFiles body' = .ok xs ∧
        respond validator config (.analyze body) = respond validator config (.analyze body') := by
  have hrun := list.run_eq_of_sameAdded WordedRule.seesAdded_check h
  refine ⟨⟨_, list.run_worded xs, hrun ▸ list.run_worded xs⟩,
    fun engine => engine.evaluate_eq_of_sameAdded h, ?_, ?_⟩
  · intro validator config body body' hxs hys
    rw [respond_analyze validator config hxs, respond_analyze validator config hys,
      Endpoint.answerAnalyze, Endpoint.answerAnalyze]
    simp only [Engine.evaluate_eq_of_sameAdded _ h]
  · intro validator config body body' hbody hxs
    have hxs' := readFiles_of_sameButTotals hbody hxs
    have hanswer := respond_analyze validator config hxs
    exact ⟨hxs', hanswer.trans (respond_analyze validator config hxs').symm⟩

/-- The script once more: its added lines stand in another surrounding, and it was renamed. -/
def rewritten : FileChange :=
  ⟨"a.py", some "b.py", .renamed, "Python", true,
    [⟨.context, "u", none⟩, ⟨.added, "x", some 1⟩, ⟨.added, "z", some 2⟩, ⟨.context, "v", some 3⟩]⟩

/-- The files with the rewritten script, as they are sent. -/
def resent : Json := .obj [("files", .arr ([rewritten, notes].map FileChange.toJson))]

/-- An object with totals in the place of its own. -/
def withTotals (totals : List (String × Json)) (v : Json) : Json :=
  match v.withoutTotals with
  | .obj fields => .obj (totals ++ fields)
  | v => v

/-- The files that are sent, with totals that are not theirs. -/
def forged : Json :=
  .obj [("files", .arr [withTotals [("additions", .int 9000)] script.toJson,
    withTotals [("deletions", .str "none"), ("additions", .int (-1))] notes.toJson])]

/-- Neither another surrounding of the added lines nor totals that are not true are noticed. -/
theorem sees_added_lines_rewritten :
    List.Forall₂ FileChange.SameAdded [script, notes] [rewritten, notes] ∧
    readFiles sent = .ok [script, notes] ∧ readFiles resent = .ok [rewritten, notes] ∧
    Json.SameButTotals sent forged ∧ sent ≠ forged ∧
    mixed.run WordedRule.check [script, notes] = mixed.run WordedRule.check [rewritten, notes] ∧
    ∀ validator : Validator,
    respond validator {} (.analyze sent) = respond validator {} (.analyze resent) ∧
    respond validator {} (.analyze sent) = respond validator {} (.analyze forged) := by
  have hfiles : List.Forall₂ FileChange.SameAdded [script, notes] [rewritten, notes] :=
    .cons ⟨rfl, rfl, rfl⟩ (.cons ⟨rfl, rfl, rfl⟩ .nil)
  have hsent : readFiles sent = .ok [script, notes] := FileChange.readFiles_map_toJson _
  have hresent : readFiles resent = .ok [rewritten, notes] := FileChange.readFiles_map_toJson _
  have hforged : Json.SameButTotals sent forged :=
    .files [] [] (.cons (by decide) (.cons (by decide) .nil))
  obtain ⟨⟨_, hrun, hrun'⟩, -, hlines, htotals⟩ := sees_added_lines mixed hfiles
  refine ⟨hfiles, hsent, hresent, hforged, by decide, hrun.trans hrun'.symm, fun validator => ?_⟩
  exact ⟨hlines validator {} sent resent hsent hresent,
    (htotals validator {} sent forged hforged hsent).2⟩

end Checklist
end DiffReview
