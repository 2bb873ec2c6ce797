import DiffReview.Proofs.Text.Search
import DiffReview.Review.Engine
import Mathlib.Data.List.Infix

/-!
# The issues of the built-in rules

What the built-in rules find is written down without rules or engines: for an added line the
findings that its content calls for, for a file those of its lines and then the one that its size
calls for, for a list of files those of each in turn. The engine finds this and nothing else.
-/
namespace DiffReview

/-- The finding, as long as a condition holds. -/
def Finding.onlyIf (p : Prop) [Decidable p] (finding : Finding) : List Finding :=
  if p then [finding] else []

namespace Change

/-- What an added line of a JavaScript or TypeScript file calls for. -/
def scriptFindings (locale : Locale) (minLength : Int) (filename : String) (line : Change) :
    List Finding :=
  Finding.onlyIf ("console.log".toList <:+: line.content.toList)
      ⟨filename, line.lineNumber, .warning, Message.text locale .consoleLog "", .debugCode⟩ ++
    Finding.onlyIf ("eval(".toList <:+: line.content.toList)
      ⟨filename, line.lineNumber, .error, Message.text locale .evalCall "", .security⟩ ++
    Finding.onlyIf (Text.BeginsComment line.content.toList ∧ minLength < line.content.toList.length)
      ⟨filename, line.lineNumber, .info, Message.text locale .commentedCode "", .codeQuality⟩

/-- What an added line of a Python file calls for. -/
def pythonFindings (locale : Locale) (filename : String) (line : Change) : List Finding :=
  Finding.onlyIf ("print(".toList <:+: line.content.toList)
      ⟨filename, line.lineNumber, .info, Message.text locale .printCall "", .debugCode⟩ ++
    Finding.onlyIf (Text.HasHandler line.content.toList)
      ⟨filename, line.lineNumber, .warning, Message.text locale .bareExcept "", .errorHandling⟩

end Change

/-- The text that reports a large change. -/
def Locale.largeChange (count : Nat) : Locale → String
  | .en => "This file adds a large amount of code (" ++ toString count ++
      " lines), consider splitting it into smaller commits"
  | .zh => "此文件添加了大量代码(" ++ toString count ++ "行)，建议拆分为更小的提交"

namespace FileChange

/-- What the added lines of a file call for, line by line. -/
def lineFindings (locale : Locale) (minLength : Int) (file : FileChange) : List Finding :=
  if file.language = "JavaScript" ∨ file.language = "TypeScript" then
    (file.changes.filter (·.kind = .added)).flatMap
      (·.scriptFindings locale minLength file.filename)
  else if file.language = "Python" then
    (file.changes.filter (·.kind = .added)).flatMap (·.pythonFindings locale file.filename)
  else []

/-- What the number of added lines calls for. -/
def sizeFindings (locale : Locale) (threshold : Int) (file : FileChange) : List Finding :=
  Finding.onlyIf (threshold < (file.changes.filter (·.kind = .added)).length)
    ⟨file.filename, none, .warning,
      locale.largeChange (file.changes.filter (·.kind = .added)).length, .codeReviewPractice⟩

end FileChange

namespace LineRule

/-- A line rule has its finding on the lines that it is about. -/
theorem toList_check (rule : LineRule) {locale : Locale} {filename : String} {line : Change}
    {p : Prop} [Decidable p] (h : rule.isMatch line.content.toList = true ↔ p) :
    (rule.check locale filename line).toList = Finding.onlyIf p
      ⟨filename, line.lineNumber, rule.severity, rule.message.text locale "", rule.type⟩ := by
  simp only [check, h, Finding.onlyIf]
  split <;> rfl

theorem isMatch_commentedCode {minLength : Int} {content : List Char} :
    (commentedCode minLength).isMatch content = true ↔
      Text.BeginsComment content ∧ minLength < content.length := by
  rw [isMatch, Bool.and_eq_true, decide_eq_true_iff, Text.beginsComment_iff]

theorem check_javascript (locale : Locale) (minLength : Int) (filename : String) (line : Change) :
    [consoleLog, evalCall, commentedCode minLength].filterMap (·.check locale filename line) =
      line.scriptFindings locale minLength filename := by
  rw [List.filterMap_eq_flatMap_toList]
  simp only [List.flatMap_cons, List.flatMap_nil, List.append_nil]
  rw [toList_check consoleLog Text.occurs_iff, toList_check evalCall Text.occurs_iff,
    toList_check (commentedCode minLength) isMatch_commentedCode, ← List.append_assoc]
  rfl

theorem check_python (locale : Locale) (filename : String) (line : Change) :
    [printCall, bareExcept].filterMap (·.check locale filename line) =
      line.pythonFindings locale filename := by
  rw [List.filterMap_eq_flatMap_toList]
  simp only [List.flatMap_cons, List.flatMap_nil, List.append_nil]
  rw [toList_check printCall Text.occurs_iff,
    toList_check bareExcept Text.hasHandler_iff.symm]
  rfl

end LineRule

/-- The number of added lines is part of the text. -/
theorem Message.text_largeChange (locale : Locale) (count : Nat) :
    Message.text locale .largeChange (toString count) = locale.largeChange count := by
  have hjoin (a b c : String) : String.join [a, b, c] = a ++ b ++ c := by
    simp only [String.join, List.foldl_cons, List.foldl_nil, String.empty_append]
  cases locale with
  | en => exact hjoin _ _ _
  | zh => exact hjoin _ _ _

/-- The rule about the size of a file finds what its number of added lines calls for. -/
theorem Rule.evaluate_large (threshold : Int) (locale : Locale) (file : FileChange) :
    (large threshold).evaluate locale file = file.sizeFindings locale threshold := by
  rw [evaluate, Message.text_largeChange, FileChange.additions_eq_length_added]
  rfl

namespace Engine

/-- JavaScript and TypeScript have the same built-in rules, and only Python has others. -/
theorem ruleSet?_standard (locale : Locale) (threshold minLength : Int) (file : FileChange) :
    (standard locale threshold minLength).ruleSet? file =
      if file.language = "JavaScript" ∨ file.language = "TypeScript" then
        some (.javascript locale minLength)
      else if file.language = "Python" then some (.python locale)
      else none := by
  rw [ruleSet?, standard]
  by_cases hjs : file.language = "JavaScript"
  · simp [hjs]
  by_cases hts : file.language = "TypeScript"
  · simp [hts, List.lookup_cons]
  by_cases hpy : file.language = "Python"
  · simp [hpy, List.lookup_cons]
  · simp [hjs, hts, hpy, List.lookup_cons, beq_false_of_ne]

/-- The built-in rules of a language find what its added lines call for. -/
theorem lineFindings_standard (locale : Locale) (threshold minLength : Int) (file : FileChange) :
    (((standard locale threshold minLength).ruleSet? file).elim [] RuleSet.rules).flatMap
      (·.evaluate locale file) = file.lineFindings locale minLength := by
  rw [ruleSet?_standard, FileChange.lineFindings]
  split_ifs
  · simp [RuleSet.javascript, Rule.evaluate, LineRule.check_javascript, FileChange.added]
  · simp [RuleSet.python, Rule.evaluate, LineRule.check_python, FileChange.added]
  · rfl

theorem issues_standard (locale : Locale) (threshold minLength : Int) (file : FileChange) :
    (standard locale threshold minLength).issues file =
      file.lineFindings locale minLength ++ file.sizeFindings locale threshold := by
  rw [issues, rules, List.flatMap_append]
  exact congrArg₂ (· ++ ·) (lineFindings_standard locale threshold minLength file)
    (by simp [standard, Rule.evaluate_large])

end Engine

namespace Config

/-- For every language of the texts and all limits there is an engine, and its issues are those
that the files call for: in order, each exactly once, and no others. -/
theorem issues_engine (config : Config) (locale : Locale) (threshold minLength : Int)
    (files : List FileChange) :
    ∃ engine, config.engine ⟨some locale.name, some threshold, some minLength⟩ = .ok engine ∧
      (engine.evaluate files).issues = files.flatMap fun file =>
        file.lineFindings locale minLength ++ file.sizeFindings locale threshold := by
  have hname : locale.name ≠ "" := by cases locale <;> decide
  refine ⟨.standard locale threshold minLength, ?_, ?_⟩
  · simp [engine, EngineOptions.localeName, hname]
  · rw [Engine.issues_evaluate]
    exact List.flatMap_congr fun file _ => Engine.issues_standard locale threshold minLength file

end Config
end DiffReview
