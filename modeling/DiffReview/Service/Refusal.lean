import DiffReview.Review.Engine
import DiffReview.Text.Quoted
import DiffReview.Wire.Contract

/-!
# Refusals

What goes wrong behind an endpoint is answered with a status and a detail. A diff that is not
recognised is the client's fault and is answered with its block; a refusal that is already made is
passed on; everything else is unexpected and is answered with its kind and its text.
-/

namespace DiffReview

/-- An unexpected problem. -/
inductive Problem
  | runtime (text : String)
  | value (text : String)
  | key (text : String)
  | type (text : String)
  | lineNumberZero
deriving DecidableEq

namespace Problem

/-- The kind of a problem as it is reported. -/
def kind : Problem → String
  | .runtime _ => "RuntimeError"
  | .value _ => "ValueError"
  | .key _ => "KeyError"
  | .type _ => "TypeError"
  | .lineNumberZero => "pydantic_core._pydantic_core.ValidationError"

/-- Where the kinds of defects are explained. -/
def helpSite : String := "https://" ++ "errors.pydantic.dev" ++ "/2.14/v/"

/-- The text of a problem. The text of a key is quoted. -/
def text : Problem → String
  | .runtime text => text
  | .value text => text
  | .key text => Text.quoted text
  | .type text => text
  | .lineNumberZero =>
    "1 validation error for ChangeLine\nline_number\n" ++
    "  Input should be greater than 0 [type=greater_than, input_value=0, input_type=int]\n" ++
    "    For further information visit " ++ helpSite ++ "greater_than"

end Problem

/-- A status and the detail that explains it. -/
structure Refusal where
  status : Nat
  detail : Json
deriving DecidableEq

/-- What can go wrong behind an endpoint. -/
inductive Trouble
  | unrecognised (message block : String)
  | refused (refusal : Refusal)
  | unexpected (problem : Problem)
deriving DecidableEq

namespace Trouble

/-- The trouble that a parse failure makes. -/
def ofParseFailure : ParseFailure → Trouble
  | .rejected e => .unrecognised e.message e.blockText
  | .numeral e => .unexpected (.value e.message)
  | .lineNumberZero => .unexpected .lineNumberZero

def ofLocale (e : UnsupportedLocale) : Trouble := .unexpected (.value e.message)

def ofReviewFailure : ReviewFailure → Trouble
  | .parse e => ofParseFailure e
  | .locale e => ofLocale e

/-- The refusal with which an endpoint answers trouble. -/
def refusal (endpoint : String) : Trouble → Refusal
  | .unrecognised message block =>
    ⟨422, .obj
      [("message", .str ("[" ++ endpoint ++ "] Could not parse diff: " ++ message)),
       ("block", .str block)]⟩
  | .refused refusal => refusal
  | .unexpected problem =>
    ⟨500, .str ("[" ++ endpoint ++ "] Exception <class '" ++ problem.kind ++
      "'> occured during handling request: " ++ problem.text)⟩

end Trouble

/-- The words in which a validator says how a value breaks a schema. -/
abbrev Validator := Schema → Json → String

/-- Lets a result pass that keeps the contract of an endpoint. What the validator says about any
other result is passed on. -/
def keepContract (validator : Validator) (endpoint : String) (schema : Schema) (result : Json) :
    Except Trouble Json :=
  if schema.accepts result then .ok result
  else
    let text := "Error while validating " ++ endpoint ++ "'s result : " ++ validator schema result
    .error (.refused ⟨500, .str text⟩)

end DiffReview
