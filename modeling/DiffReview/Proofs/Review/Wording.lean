import DiffReview.Proofs.Review.Issues
import DiffReview.Proofs.Review.Suggestions
import Mathlib.Data.List.Forall2

/-!
# Wording

The language of the built-in rules decides nothing but the words of their texts. Neither what a
rule finds nor which message it shows depends on it, so the analyses of the same files in two
languages agree place by place. Suggestions are told apart by their texts; this does no harm,
because in each language different suggestions have different texts.
-/

namespace DiffReview

/-- Two findings that differ at most in the language of their texts, which show the same message
with the same count. -/
structure Finding.SaysSame (l l' : Locale) (a b : Finding) : Prop where
  filename : a.filename = b.filename
  lineNumber : a.lineNumber = b.lineNumber
  severity : a.severity = b.severity
  type : a.type = b.type
  message : ∃ (message : Message) (count : Option Nat),
    message.text? l (count.map toString) = some a.message ∧
      message.text? l' (count.map toString) = some b.message

/-- Lists that are made piece by piece are related when their pieces are. -/
theorem forall₂_flatMap {α β : Type} {R : β → β → Prop} {f g : α → List β}
    (h : ∀ a, List.Forall₂ R (f a) (g a)) (as : List α) :
    List.Forall₂ R (as.flatMap f) (as.flatMap g) := by
  have hsame : List.Forall₂ Eq as as := List.forall₂_refl as
  exact List.rel_flatMap hsame fun a b hab => hab ▸ h a

variable (l l' : Locale)

theorem LineRule.saysSame_check (rule : LineRule) (filename : String) (change : Change) :
    List.Forall₂ (Finding.SaysSame l l') (rule.check l filename change).toList
      (rule.check l' filename change).toList := by
  by_cases h : rule.isMatch change.content.toList
  · simp only [check, h, if_true, Option.toList_some]
    refine .cons ⟨rfl, rfl, rfl, rfl, rule.message, none, ?_, ?_⟩ .nil
    · exact Message.text?_none l (rule.count_not_mem l)
    · exact Message.text?_none l' (rule.count_not_mem l')
  · simp [check, h]

/-- A rule finds the same in every language. -/
theorem Rule.saysSame_evaluate (rule : Rule) (file : FileChange) :
    List.Forall₂ (Finding.SaysSame l l') (rule.evaluate l file) (rule.evaluate l' file) := by
  cases rule with
  | large threshold =>
    by_cases h : threshold < file.additions
    · simp only [evaluate, h, if_true]
      exact .cons ⟨rfl, rfl, rfl, rfl, .largeChange, some file.additions, rfl, rfl⟩ .nil
    · simp [evaluate, h]
  | lines rules =>
    simp only [evaluate, List.filterMap_eq_flatMap_toList]
    exact forall₂_flatMap (fun change => forall₂_flatMap
      (fun rule => rule.saysSame_check l l' file.filename change) rules) file.added

namespace Message

/-- The messages that suggest. -/
def suggestions : List Message :=
  [.useJsLinters, .addJsdoc, .usePyFormatter, .useTypeHints, .splitLargeChanges]

theorem count_not_mem : ∀ message ∈ suggestions, .count ∉ message.template l := by
  cases l <;> decide

/-- In each language different suggestions have different texts. -/
theorem text_inj : ∀ message ∈ suggestions, ∀ message' ∈ suggestions,
    message.text l "" = message'.text l "" → message = message' := by
  cases l <;> decide

end Message

/-- The messages of the suggestions that a file gives rise to under the built-in rules. -/
def FileChange.advice (threshold : Int) (file : FileChange) : List Message :=
  (if file.language = "JavaScript" ∨ file.language = "TypeScript" then
      [.useJsLinters, .addJsdoc]
    else if file.language = "Python" then [.usePyFormatter, .useTypeHints]
    else []) ++
  if threshold < file.additions then [.splitLargeChanges] else []

namespace Engine

variable (threshold minLength : Int) (file : FileChange)

/-- Which rules apply to a file does not depend on the language of the texts. -/
theorem rules_standard :
    (standard l threshold minLength).rules file = (standard l' threshold minLength).rules file := by
  rw [rules, rules, ruleSet?_standard, ruleSet?_standard]
  split_ifs <;> rfl

theorem saysSame_issues : List.Forall₂ (Finding.SaysSame l l')
    ((standard l threshold minLength).issues file)
    ((standard l' threshold minLength).issues file) := by
  rw [issues, issues, rules_standard l l']
  exact forall₂_flatMap (fun rule => rule.saysSame_evaluate l l' file) _

/-- The built-in rules make their suggestions by message, and the language words them. -/
theorem contributions_standard : (standard l threshold minLength).contributions file =
    (file.advice threshold).map fun message => message.text l "" := by
  have hlarge : ([Rule.large threshold].flatMap fun rule =>
      rule.suggestions l (rule.evaluate l file)) =
      (if threshold < file.additions then [Message.splitLargeChanges] else []).map
        fun message => message.text l "" := by
    by_cases h : threshold < file.additions <;> simp [Rule.suggestions, Rule.evaluate, h]
  rw [contributions, rules, ruleSet?_standard, FileChange.advice, List.map_append,
    List.flatMap_append, ← List.append_assoc]
  refine congrArg₂ (· ++ ·) ?_ hlarge
  split_ifs <;> rfl

theorem mem_suggestions_of_mem_advice {message : Message} (h : message ∈ file.advice threshold) :
    message ∈ Message.suggestions := by
  revert h
  rw [FileChange.advice]
  split_ifs <;> revert message <;> decide

/-- The suggestions of the built-in rules are the texts of messages that do not depend on the
language. -/
theorem suggestions_standard (files : List FileChange) :
    ((standard l threshold minLength).evaluate files).suggestions =
      (files.flatMap (FileChange.advice threshold)).eraseDups.map
        fun message => message.text l "" := by
  have hadvice : ∀ message ∈ files.flatMap (FileChange.advice threshold),
      message ∈ Message.suggestions := by
    intro message h
    obtain ⟨file, -, h⟩ := List.mem_flatMap.1 h
    exact mem_suggestions_of_mem_advice threshold file h
  have hfiles : files.flatMap (standard l threshold minLength).contributions =
      (files.flatMap (FileChange.advice threshold)).map fun message => message.text l "" := by
    rw [List.map_flatMap]
    exact List.flatMap_congr fun file _ => contributions_standard l threshold minLength file
  rw [suggestions_evaluate, hfiles]
  exact eraseDups_map fun message h message' h' =>
    Message.text_inj l message (hadvice message h) message' (hadvice message' h')

end Engine

namespace Config

/-- The built-in rules say the same in both languages, whatever their limits. The findings agree
place by place but for the language of their texts, and so do the suggestions. -/
theorem saysSame_engines (config : Config) (threshold minLength : Int) (files : List FileChange) :
    ∃ en zh, config.engine ⟨some "en", some threshold, some minLength⟩ = .ok en ∧
      config.engine ⟨some "zh", some threshold, some minLength⟩ = .ok zh ∧
      List.Forall₂ (Finding.SaysSame .en .zh) (en.evaluate files).issues
        (zh.evaluate files).issues ∧
      List.Forall₂ (fun s t => ∃ message : Message,
          message.text? .en none = some s ∧ message.text? .zh none = some t)
        (en.evaluate files).suggestions (zh.evaluate files).suggestions := by
  refine ⟨.standard .en threshold minLength, .standard .zh threshold minLength, rfl, rfl, ?_, ?_⟩
  · exact forall₂_flatMap
      (fun file => Engine.saysSame_issues .en .zh threshold minLength file) files
  · rw [Engine.suggestions_standard, Engine.suggestions_standard, List.forall₂_map_left_iff,
      List.forall₂_map_right_iff, List.forall₂_same]
    intro message h
    obtain ⟨file, -, h⟩ := List.mem_flatMap.1 (List.mem_eraseDups.1 h)
    have h := Engine.mem_suggestions_of_mem_advice threshold file h
    exact ⟨message, Message.text?_none .en (Message.count_not_mem .en message h),
      Message.text?_none .zh (Message.count_not_mem .zh message h)⟩

end Config
end DiffReview
