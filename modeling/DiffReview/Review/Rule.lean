import DiffReview.Diff.FileChange
import DiffReview.Review.Finding
import DiffReview.Review.Message
import DiffReview.Text.Classes

/-!
# Rules

A line rule looks at the content of one added line. A rule looks at one file: it applies line
rules to the added lines, or it weighs the number of added lines. Rules see nothing else of a
file than its name and its added lines.
-/

namespace DiffReview

/-- A check of the content of one added line. -/
inductive LineRule
  | consoleLog
  | evalCall
  | commentedCode (minLength : Int)
  | printCall
  | bareExcept
deriving DecidableEq

namespace LineRule

/-- The lines that a rule is about. -/
def isMatch (rule : LineRule) (content : List Char) : Bool :=
  match rule with
  | .consoleLog => Text.occurs "console.log".toList content
  | .evalCall => Text.occurs "eval(".toList content
  | .commentedCode minLength =>
    ['/', '/'].isPrefixOf (content.dropWhile Text.isBlank) && minLength < content.length
  | .printCall => Text.occurs "print(".toList content
  | .bareExcept => Text.hasBareHandler content

def severity : LineRule → Severity
  | .consoleLog => .warning
  | .evalCall => .error
  | .commentedCode _ => .info
  | .printCall => .info
  | .bareExcept => .warning

def type : LineRule → IssueType
  | .consoleLog => .debugCode
  | .evalCall => .security
  | .commentedCode _ => .codeQuality
  | .printCall => .debugCode
  | .bareExcept => .errorHandling

def message : LineRule → Message
  | .consoleLog => .consoleLog
  | .evalCall => .evalCall
  | .commentedCode _ => .commentedCode
  | .printCall => .printCall
  | .bareExcept => .bareExcept

/-- The finding on a line, if the rule is about it. -/
def check (rule : LineRule) (locale : Locale) (filename : String) (change : Change) :
    Option Finding :=
  if rule.isMatch change.content.toList then
    some {
      filename
      lineNumber := change.lineNumber
      severity := rule.severity
      message := rule.message.text locale ""
      type := rule.type }
  else none

end LineRule

/-- A check of one file. -/
inductive Rule
  /-- More added lines than a threshold. -/
  | large (threshold : Int)
  /-- Line rules, all of them on each added line in turn. -/
  | lines (rules : List LineRule)
deriving DecidableEq

namespace Rule

/-- The findings of a rule on a file. -/
def evaluate (rule : Rule) (locale : Locale) (file : FileChange) : List Finding :=
  match rule with
  | .large threshold =>
    if threshold < file.additions then
      [{ filename := file.filename
         lineNumber := none
         severity := .warning
         message := Message.text locale .largeChange (toString file.additions)
         type := .codeReviewPractice }]
    else []
  | .lines rules =>
    file.added.flatMap fun change =>
      rules.filterMap fun rule => rule.check locale file.filename change

/-- The suggestions that follow from the findings of a rule. -/
def suggestions (rule : Rule) (locale : Locale) (findings : List Finding) : List String :=
  match rule with
  | .large _ => if findings = [] then [] else [Message.text locale .splitLargeChanges ""]
  | .lines _ => []

end Rule

/-- The rules for a language, and suggestions made for every file in it. -/
structure RuleSet where
  rules : List Rule
  suggestions : List String
deriving DecidableEq

namespace RuleSet

/-- The rules for JavaScript and TypeScript. -/
def javascript (locale : Locale) (minLength : Int) : RuleSet where
  rules := [.lines [.consoleLog, .evalCall, .commentedCode minLength]]
  suggestions := [Message.text locale .useJsLinters "", Message.text locale .addJsdoc ""]

/-- The rules for Python. -/
def python (locale : Locale) : RuleSet where
  rules := [.lines [.printCall, .bareExcept]]
  suggestions := [Message.text locale .usePyFormatter "", Message.text locale .useTypeHints ""]

end RuleSet
end DiffReview
