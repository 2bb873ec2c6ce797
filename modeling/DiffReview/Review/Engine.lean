import DiffReview.Diff.Parse
import DiffReview.Review.Rule

/-!
# The rule engine and its reviews

An engine maps languages to rule sets and has common rules for every file. The files are taken in
order; on each the rules of its language come before the common ones. Suggestions are kept in the
order in which they are first made, each once. The configuration gives the language of the texts and
the limits of the built-in rules, wherever a request does not give its own. A review is a parsed
diff together with the analysis of its files.
-/

namespace DiffReview

/-- Rules for files by language, and the language of their texts. -/
structure Engine where
  /-- The language of all texts. -/
  locale : Locale
  /-- Languages and their rule sets; the first entry of a language counts. -/
  ruleSets : List (String × RuleSet)
  /-- Rules for every file. -/
  common : List Rule
deriving DecidableEq

namespace Engine

/-- The rule set of a file, if its language has one. -/
def ruleSet? (engine : Engine) (file : FileChange) : Option RuleSet :=
  engine.ruleSets.lookup file.language

/-- The rules that apply to a file, in order. -/
def rules (engine : Engine) (file : FileChange) : List Rule :=
  (engine.ruleSet? file).elim [] RuleSet.rules ++ engine.common

/-- The findings on a file. -/
def issues (engine : Engine) (file : FileChange) : List Finding :=
  (engine.rules file).flatMap fun rule => rule.evaluate engine.locale file

/-- The suggestions that a file gives rise to, repeats included. -/
def contributions (engine : Engine) (file : FileChange) : List String :=
  (engine.ruleSet? file).elim [] RuleSet.suggestions ++
    (engine.rules file).flatMap fun rule =>
      rule.suggestions engine.locale (rule.evaluate engine.locale file)

/-- The analysis of files. -/
def evaluate (engine : Engine) (files : List FileChange) : Analysis where
  issues := files.flatMap engine.issues
  suggestions := (files.flatMap engine.contributions).eraseDups

@[simp] theorem issues_evaluate (engine : Engine) (files : List FileChange) :
    (engine.evaluate files).issues = files.flatMap engine.issues := rfl

@[simp] theorem suggestions_evaluate (engine : Engine) (files : List FileChange) :
    (engine.evaluate files).suggestions = (files.flatMap engine.contributions).eraseDups := rfl

/-- The engine with the built-in rules. -/
def standard (locale : Locale) (threshold minLength : Int) : Engine where
  locale
  ruleSets :=
    [("JavaScript", .javascript locale minLength), ("TypeScript", .javascript locale minLength),
     ("Python", .python locale)]
  common := [.large threshold]

end Engine

/-- What holds where a request asks for nothing else. The name of the language is not checked
before an engine is built. -/
structure Config where
  locale : String := "en"
  largeChangeThreshold : Int := 300
  commentedCodeMinLength : Int := 50
  logLevel : String := "INFO"
deriving DecidableEq

/-- What a request may ask of the built-in rules. -/
structure EngineOptions where
  locale : Option String := none
  threshold : Option Int := none
  minLength : Option Int := none
deriving DecidableEq

namespace EngineOptions

/-- The name of the language that options ask for. An empty name asks for none. -/
def localeName (options : EngineOptions) (config : Config) : String :=
  match options.locale with
  | none => config.locale
  | some name => if name = "" then config.locale else name

end EngineOptions

namespace Config

/-- The engine with the built-in rules under a configuration. -/
def engine (config : Config) (options : EngineOptions) : Except UnsupportedLocale Engine :=
  match Locale.ofName (options.localeName config) with
  | .error e => .error e
  | .ok locale =>
    .ok (.standard locale (options.threshold.getD config.largeChangeThreshold)
      (options.minLength.getD config.commentedCodeMinLength))

end Config

/-- A parsed diff and the analysis of its files. -/
structure Review where
  diff : ParsedDiff
  analysis : Analysis
deriving DecidableEq

/-- How a review can fail. -/
inductive ReviewFailure
  | parse (e : ParseFailure)
  | locale (e : UnsupportedLocale)
deriving DecidableEq

namespace Review

/-- The review of a diff by an engine. -/
def run (engine : Engine) (text : String) : Except ParseFailure Review :=
  match ParsedDiff.parse text with
  | .error e => .error e
  | .ok diff => .ok ⟨diff, engine.evaluate diff.files⟩

/-- The review of a diff by the built-in rules. The diff is parsed before the engine is built. -/
def runConfigured (config : Config) (text : String) : Except ReviewFailure Review :=
  match ParsedDiff.parse text with
  | .error e => .error (.parse e)
  | .ok diff =>
    match config.engine {} with
    | .error e => .error (.locale e)
    | .ok engine => .ok ⟨diff, engine.evaluate diff.files⟩

end Review

end DiffReview
