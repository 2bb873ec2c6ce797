import DiffReview.Review.Engine
import DiffReview.Wire.Scalar
import DiffReview.Wire.SettingsFile

/-!
# Configuration from the environment

Settings come from environment variables and from a settings file. Variables come before the file.
Names are compared without regard to case; of the spellings of a name in one source, the one that
was set first last decides. Names that mean nothing here are passed over.
-/

namespace DiffReview

namespace Settings

/-- A text in lower case. -/
def lowered (s : String) : List Char := s.toList.map Char.toLower

/-- The value of the last spelling of a name. -/
def get? (settings : Settings) (name : String) : Option String :=
  (settings.reverse.find? fun s => lowered s.1 = lowered name).bind (·.2)

/-- The settings of the environment and of the text of a settings file. -/
def ofSources (environment : Settings) (file : String) : Settings :=
  SettingsFile.read environment file ++ environment

end Settings

namespace Config

/-- Reads one setting. -/
def setting {α : Type} (settings : Settings) (name : String) (absent : α)
    (read : Json → Checked α) : Checked α :=
  match settings.get? name with
  | some value => (read (.str value)).under (.field name)
  | none => .ok absent

/-- Reads the name of a language that has messages. -/
def readLocaleName : Json → Checked String
  | .str s =>
    if s ∈ Locale.all.map Locale.name then .ok s
    else .flawed [⟨[], .notLiteral (Locale.all.map Locale.name), .str s⟩]
  | v => .flawed [⟨[], .notLiteral (Locale.all.map Locale.name), v⟩]

/-- The configuration that settings make, with the defaults for what they leave open. -/
def ofSettings (settings : Settings) : Checked Config :=
  let defaults : Config := {}
  ((((setting settings "REVIEWER_LOCALE" defaults.locale readLocaleName).map Config.mk).app
    (setting settings "LARGE_CHANGE_THRESHOLD" defaults.largeChangeThreshold Wire.readInt)).app
    (setting settings "COMMENTED_CODE_MIN_LENGTH" defaults.commentedCodeMinLength
      Wire.readInt)).app
    (setting settings "LOG_LEVEL" defaults.logLevel Wire.readString)

end Config
end DiffReview
