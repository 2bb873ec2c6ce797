import DiffReview.Proofs.Review.Merging
import DiffReview.Review.WordedRule

/-!
# Suggestions of the built-in rules

No look-up of a built-in rule asks for a text whose count is missing, so going through a checklist
of built-in rules never fails. What it makes are the findings of the rules, and every suggestion
that a file gives rise to, when it first does. The analyses of an engine are these.
-/

namespace DiffReview

variable (locale : Locale)

/-- A message that asks for no count has a text without one. -/
theorem Message.text?_none {message : Message} (h : .count ∉ message.template locale) :
    message.text? locale none = some (message.text locale "") := by
  rw [text?, if_neg h]

theorem Message.lookUp_none {message : Message} (h : .count ∉ message.template locale) :
    message.lookUp locale none = .ok (message.text locale "") := by
  simp only [lookUp, Option.map_none, text?_none locale h]

/-- The message of a line rule asks for no count. -/
theorem LineRule.count_not_mem (rule : LineRule) : .count ∉ rule.message.template locale := by
  cases rule <;> cases locale <;> simp [message, Message.template]

/-- The text of a line rule is found, so looking it up changes nothing. -/
theorem LineRule.report_eq (rule : LineRule) (filename : String) (change : Change) :
    rule.report locale filename change = .ok (rule.check locale filename change) := by
  rw [report, check, Message.lookUp_none locale (rule.count_not_mem locale)]
  split <;> rfl

theorem Message.lookUp_splitLargeChanges :
    splitLargeChanges.lookUp locale none = .ok (splitLargeChanges.text locale "") :=
  lookUp_none locale (by cases locale <;> decide)

namespace WordedRule

/-- The findings of a rule on a file. -/
def findings : WordedRule → FileChange → List Finding
  | large locale threshold, file => (Rule.large threshold).evaluate locale file
  | lines rules, file => file.added.flatMap fun change =>
    rules.filterMap fun rule => rule.2.check rule.1 file.filename change

/-- The suggestions that a rule makes for a file. -/
def offers : WordedRule → FileChange → List String
  | large locale threshold, file =>
    if threshold < file.additions then [Message.splitLargeChanges.text locale ""] else []
  | lines _, _ => []

/-- Line rules find on each line what their checks of it find. -/
theorem report_lines (rules : List (Locale × LineRule)) (filename : String)
    (changes : List Change) :
    (changes.mapM fun change =>
      rules.mapM fun rule => rule.2.report rule.1 filename change) =
      .ok (changes.map fun change =>
        rules.map fun rule => rule.2.check rule.1 filename change) := by
  simp only [LineRule.report_eq]
  have hrow (change : Change) :
      (rules.mapM fun rule => (.ok (rule.2.check rule.1 filename change) :
        Except LookupError (Option Finding))) =
      .ok (rules.map fun rule => rule.2.check rule.1 filename change) := List.mapM_pure
  simp only [hrow]
  exact List.mapM_pure

/-- A built-in rule never fails. -/
theorem check_gives (rule : WordedRule) : rule.check.Gives rule.findings rule.offers := by
  intro file
  cases rule with
  | large locale threshold =>
    -- a finding is there exactly when the size is exceeded, and so is the suggestion
    by_cases h : threshold < file.additions
    · simp only [check, findings, offers, Rule.evaluate, h, if_true, List.cons_ne_nil, if_false,
        Message.lookUp_splitLargeChanges]
      exact ⟨rfl, rfl⟩
    · simp only [check, findings, offers, Rule.evaluate, h, if_false]
      exact ⟨rfl, rfl⟩
  | lines rules =>
    refine ⟨?_, rfl⟩
    have hrows := report_lines rules file.filename file.added
    simp only [check, findings, hrows]
    refine congrArg Except.ok ?_
    rw [← List.flatMap_def, List.filterMap_flatMap]
    simp only [List.filterMap_map, Function.id_comp]

end WordedRule

namespace Checklist

variable {list : Checklist WordedRule} {file : FileChange} {s : String}

/-- The suggestions that a file gives rise to, in order and with repeats: the fixed ones of its
language, then those of its rules. -/
def offers (list : Checklist WordedRule) (file : FileChange) : List String :=
  list.fixed file ++ (list.rules file).flatMap fun rule => rule.offers file

/-- Going through a checklist of built-in rules never fails. -/
theorem run_worded (list : Checklist WordedRule) (files : List FileChange) :
    list.run WordedRule.check files = .ok (.ofOffers
      (files.flatMap fun file => (list.rules file).flatMap fun rule => rule.findings file)
      (files.flatMap list.offers)) :=
  run_of_gives WordedRule.check_gives files

theorem mem_fixed : s ∈ list.fixed file ↔
    ∃ chapter, list.chapters.lookup file.language = some chapter ∧ s ∈ chapter.suggestions := by
  rw [fixed, chapter?]
  cases list.chapters.lookup file.language <;> simp

/-- A file gives rise to the fixed suggestions of its language, and to that of every rule about
its size which it exceeds. -/
theorem mem_offers : s ∈ list.offers file ↔
    (∃ chapter, list.chapters.lookup file.language = some chapter ∧ s ∈ chapter.suggestions) ∨
    ∃ (locale : Locale) (threshold : Int), .large locale threshold ∈ list.rules file ∧
      threshold < file.additions ∧ s = Message.splitLargeChanges.text locale "" := by
  rw [offers, List.mem_append, mem_fixed, List.mem_flatMap]
  refine or_congr_right ⟨?_, ?_⟩
  · rintro ⟨rule, hrule, hs⟩
    cases rule with
    | large locale threshold =>
      by_cases h : threshold < file.additions
      · exact ⟨locale, threshold, hrule, h, by simpa [WordedRule.offers, h] using hs⟩
      · simp [WordedRule.offers, h] at hs
    | lines rules => simp [WordedRule.offers] at hs
  · rintro ⟨locale, threshold, hrule, h, rfl⟩
    exact ⟨_, hrule, by simp [WordedRule.offers, h]⟩

end Checklist

namespace Engine

variable (engine : Engine) (file : FileChange)

theorem findings_worded (rule : Rule) :
    (rule.worded locale).findings file = rule.evaluate locale file := by
  cases rule with
  | large threshold => rfl
  | lines rules =>
    simp only [Rule.worded, WordedRule.findings, Rule.evaluate, List.filterMap_map]
    rfl

theorem offers_worded (rule : Rule) :
    (rule.worded locale).offers file =
      rule.suggestions locale (rule.evaluate locale file) := by
  cases rule with
  | large threshold =>
    by_cases h : threshold < file.additions <;>
      simp [Rule.worded, WordedRule.offers, Rule.suggestions, Rule.evaluate, h]
  | lines rules => rfl

theorem chapter?_checklist : engine.checklist.chapter? file =
    (engine.ruleSet? file).map (RuleSet.worded engine.locale) :=
  lookup_map (RuleSet.worded engine.locale) engine.ruleSets file.language

theorem rules_checklist : engine.checklist.rules file =
    (engine.rules file).map (Rule.worded engine.locale) := by
  rw [Checklist.rules, chapter?_checklist, rules, List.map_append]
  cases engine.ruleSet? file <;> rfl

theorem fixed_checklist : engine.checklist.fixed file =
    (engine.ruleSet? file).elim [] RuleSet.suggestions := by
  rw [Checklist.fixed, chapter?_checklist]
  cases engine.ruleSet? file <;> rfl

/-- The analysis of an engine is what is made by going through its checklist. -/
theorem run_checklist (files : List FileChange) :
    engine.checklist.run WordedRule.check files = .ok (engine.evaluate files) := by
  rw [Checklist.run_of_gives WordedRule.check_gives]
  simp only [rules_checklist, fixed_checklist, List.flatMap_map, findings_worded, offers_worded]
  rfl

end Engine
end DiffReview
