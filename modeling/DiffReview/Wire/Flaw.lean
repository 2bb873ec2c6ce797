import DiffReview.Json.Basic

/-!
# Flaws of a value

Reading a value collects everything that is wrong with it, in the order of the fields that are
read. A flaw is a place, a defect and the offending value.
-/

namespace DiffReview

/-- One step from a value to a part of it. -/
inductive Step
  | field (name : String)
  | index (i : Nat)
deriving DecidableEq

/-- What is wrong with a value. -/
inductive Defect
  | missing
  | notString
  | notMember (options : List String)
  | notLiteral (options : List String)
  | notList
  | notObject (model : String)
  | notBool
  | notBoolText
  | notInt
  | notIntText
  | fractional
  | outOfRange
  | notFinite
  | notPositive
deriving DecidableEq

/-- A place in a value, what is wrong there, and the offending part. -/
structure Flaw where
  /-- The way from the whole value to the offending part. -/
  path : List Step
  defect : Defect
  input : Json
deriving DecidableEq

/-- A value that was read, or everything that is wrong with its source. -/
inductive Checked (α : Type)
  | ok (a : α)
  | flawed (flaws : List Flaw)

namespace Checked

variable {α β : Type}

def map (f : α → β) : Checked α → Checked β
  | ok a => ok (f a)
  | flawed fs => flawed fs

/-- Applies a function that was read to an argument that was read. The flaws of both count. -/
def app (f : Checked (α → β)) (x : Checked α) : Checked β :=
  match f, x with
  | ok f, ok a => ok (f a)
  | flawed fs, ok _ => flawed fs
  | ok _, flawed gs => flawed gs
  | flawed fs, flawed gs => flawed (fs ++ gs)

/-- Places the flaws of a part below a step. -/
def under (step : Step) : Checked α → Checked α
  | ok a => ok a
  | flawed fs => flawed (fs.map fun f => { f with path := step :: f.path })

@[simp] theorem map_ok (f : α → β) (a : α) : (ok a).map f = ok (f a) := rfl

@[simp] theorem app_ok (f : α → β) (a : α) : (ok f).app (ok a) = ok (f a) := rfl

@[simp] theorem under_ok (step : Step) (a : α) : (ok a).under step = ok a := rfl

theorem app_eq_ok_iff {f : Checked (α → β)} {x : Checked α} {b : β} :
    f.app x = ok b ↔ ∃ g a, f = ok g ∧ x = ok a ∧ g a = b := by
  cases f <;> cases x <;> simp [app]

end Checked

namespace Step

def toJson : Step → Json
  | .field name => .str name
  | .index i => .nat i

end Step

namespace Defect

/-- Names between quotes, with commas between them and a word before the last. -/
def alternatives : List String → String
  | [] => ""
  | [a] => "'" ++ a ++ "'"
  | [a, b] => "'" ++ a ++ "' or '" ++ b ++ "'"
  | a :: rest => "'" ++ a ++ "', " ++ alternatives rest

/-- The kind of a defect as it is reported. -/
def kind : Defect → String
  | .missing => "missing"
  | .notString => "string_type"
  | .notMember _ => "enum"
  | .notLiteral _ => "literal_error"
  | .notList => "list_type"
  | .notObject _ => "model_type"
  | .notBool => "bool_type"
  | .notBoolText => "bool_parsing"
  | .notInt => "int_type"
  | .notIntText => "int_parsing"
  | .fractional => "int_from_float"
  | .outOfRange => "int_parsing_size"
  | .notFinite => "finite_number"
  | .notPositive => "greater_than"

/-- The text that reports a defect. -/
def message : Defect → String
  | .missing => "Field required"
  | .notString => "Input should be a valid string"
  | .notMember options => "Input should be " ++ alternatives options
  | .notLiteral options => "Input should be " ++ alternatives options
  | .notList => "Input should be a valid list"
  | .notObject model => "Input should be a valid dictionary or instance of " ++ model
  | .notBool => "Input should be a valid boolean"
  | .notBoolText => "Input should be a valid boolean, unable to interpret input"
  | .notInt => "Input should be a valid integer"
  | .notIntText => "Input should be a valid integer, unable to parse string as an integer"
  | .fractional => "Input should be a valid integer, got a number with a fractional part"
  | .outOfRange => "Unable to parse input string as an integer, exceeded maximum size"
  | .notFinite => "Input should be a finite number"
  | .notPositive => "Input should be greater than 0"

/-- The details that a report gives beside the text. -/
def context : Defect → List (String × Json)
  | .notMember options => [("ctx", .obj [("expected", .str (alternatives options))])]
  | .notPositive => [("ctx", .obj [("gt", .int 0)])]
  | _ => []

end Defect
end DiffReview
