import DiffReview.Json.Basic

/-!
# Schemas and the contract of the service

A schema describes the form of a value: a scalar of some class, an array of values of one schema,
or an object with given properties and no others. Acceptance is decided by recursion on the
schema. The contract of the service is the schemas of what it answers. They describe the written
forms of parsed diffs, analyses and reviews without going through the types of these.
-/

namespace DiffReview

/-- The form of a value. -/
inductive Schema
  | oneOf (options : List String)
  | string
  | boolean
  /-- An integer that is not less than a minimum; a decimal without a fraction counts as one. -/
  | integer (minimum : Int)
  | array (items : Schema) (distinct : Bool)
  | object (properties : List (String × Schema)) (required : List String)

namespace Schema

mutual

/-- A value has the form that a schema describes. -/
def accepts : Schema → Json → Bool
  | .oneOf options, .str s => options.contains s
  | .string, .str _ => true
  | .boolean, .bool _ => true
  | .integer minimum, .int n => minimum ≤ n
  | .integer minimum, .float d =>
    match d.nearest with
    | .integer n => minimum ≤ n
    | _ => false
  | .array items distinct, .arr vs => vs.all (accepts items) && (!distinct || decide vs.Nodup)
  | .object properties required, .obj fields =>
    required.all (fun name => (Json.field? fields name).isSome) &&
      fields.all (fun field => (properties.lookup field.1).isSome) &&
      acceptsFields properties fields
  | _, _ => false

/-- The fields that are given have the forms that their properties describe. -/
def acceptsFields : List (String × Schema) → List (String × Json) → Bool
  | [], _ => true
  | (name, schema) :: rest, fields =>
    (match Json.field? fields name with
      | none => true
      | some v => accepts schema v) && acceptsFields rest fields

end

end Schema

namespace Contract

def change : Schema :=
  .object
    [("kind", .oneOf ["added", "removed", "context"]),
     ("content", .string),
     ("lineNumber", .integer 1)]
    ["kind", "content"]

def fileChange : Schema :=
  .object
    [("filename", .string),
     ("oldFilename", .string),
     ("status", .oneOf ["added", "deleted", "modified", "renamed"]),
     ("language", .string),
     ("binary", .boolean),
     ("additions", .integer 0),
     ("deletions", .integer 0),
     ("changes", .array change false)]
    ["filename", "status", "language", "binary", "additions", "deletions", "changes"]

def summary : Schema :=
  .object
    [("totalFiles", .integer 0), ("totalAdditions", .integer 0), ("totalDeletions", .integer 0)]
    ["totalFiles", "totalAdditions", "totalDeletions"]

def parsedDiff : Schema :=
  .object [("files", .array fileChange false), ("summary", summary)] ["files", "summary"]

def finding : Schema :=
  .object
    [("filename", .string),
     ("lineNumber", .integer 1),
     ("severity", .oneOf ["info", "warning", "error"]),
     ("message", .string),
     ("type", .oneOf
       ["debug-code", "security", "code-quality", "error-handling", "code-review-practice"])]
    ["filename", "severity", "message", "type"]

/-- Suggestions are distinct. -/
def analysis : Schema :=
  .object [("issues", .array finding false), ("suggestions", .array .string true)]
    ["issues", "suggestions"]

def review : Schema :=
  .object [("diff", parsedDiff), ("analysis", analysis)] ["diff", "analysis"]

end Contract
end DiffReview
