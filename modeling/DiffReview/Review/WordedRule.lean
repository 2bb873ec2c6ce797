import DiffReview.Review.Checklist
import DiffReview.Review.Engine

/-!
# Worded rules

The built-in rules as checks. Each part of a rule has the language of its own texts, and a text is
looked up when it is needed; a look-up fails where the template asks for a count and there is none.
An engine is the checklist whose rules all have the language of the engine.
-/

namespace DiffReview

/-- Looks up the text of a message. -/
def Message.lookUp (locale : Locale) (message : Message) (count : Option Nat) :
    Except LookupError String :=
  match message.text? locale (count.map toString) with
  | some text => .ok text
  | none => .error .missingCount

/-- The finding on a line, if the rule is about it. The text is looked up only then. -/
def LineRule.report (rule : LineRule) (locale : Locale) (filename : String) (change : Change) :
    Except LookupError (Option Finding) :=
  if rule.isMatch change.content.toList then do
    let message ← rule.message.lookUp locale none
    return some ⟨filename, change.lineNumber, rule.severity, message, rule.type⟩
  else
    return none

/-- A rule together with the languages of its texts. -/
inductive WordedRule
  | large (locale : Locale) (threshold : Int)
  /-- Line rules, each with the language of its text. -/
  | lines (rules : List (Locale × LineRule))
deriving DecidableEq

namespace WordedRule

/-- What a rule does on a file. -/
def check : WordedRule → Check LookupError
  | large locale threshold => {
    findings file :=
      if threshold < file.additions then do
        let message ← Message.largeChange.lookUp locale (some file.additions)
        return [⟨file.filename, none, .warning, message, .codeReviewPractice⟩]
      else
        return []
    suggestions findings :=
      if findings = [] then
        return []
      else do
        let text ← Message.splitLargeChanges.lookUp locale none
        return [text] }
  | lines rules => {
    findings file := do
      let rows ← file.added.mapM fun change =>
        rules.mapM fun rule => rule.2.report rule.1 file.filename change
      return rows.flatten.filterMap id
    suggestions _ := return [] }

end WordedRule

/-- A rule with all its texts in one language. -/
def Rule.worded (locale : Locale) : Rule → WordedRule
  | .large threshold => .large locale threshold
  | .lines rules => .lines (rules.map fun rule => (locale, rule))

/-- A rule set with all its texts in one language. -/
def RuleSet.worded (locale : Locale) (set : RuleSet) : Chapter WordedRule where
  rules := set.rules.map (Rule.worded locale)
  suggestions := set.suggestions

/-- The rules of an engine, each in the language of the engine. -/
def Engine.checklist (engine : Engine) : Checklist WordedRule where
  chapters := engine.ruleSets.map fun entry => (entry.1, entry.2.worded engine.locale)
  common := engine.common.map (Rule.worded engine.locale)

end DiffReview
