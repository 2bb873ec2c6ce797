import DiffReview.Service.Refusal
import DiffReview.Wire.Contract
import DiffReview.Wire.Encode

/-!
# Endpoints

An endpoint has a name, a contract, and a result that may fail. Its answer is the result as long
as that keeps the contract, and otherwise a refusal that carries the endpoint's name. The validator
that words how a contract is broken is given from outside.
-/

namespace DiffReview

/-- The name of an endpoint and the form of its results. -/
structure Endpoint where
  name : String
  contract : Schema

namespace Endpoint

variable (validator : Validator)

/-- The answer of an endpoint to a result. -/
def answer (endpoint : Endpoint) (result : Except Trouble Json) : Except Refusal Json :=
  match result with
  | .error trouble => .error (trouble.refusal endpoint.name)
  | .ok value =>
    match keepContract validator endpoint.name endpoint.contract value with
    | .error trouble => .error (trouble.refusal endpoint.name)
    | .ok value => .ok value

def diffParse : Endpoint := ⟨"endpoint_diff_parse", Contract.parsedDiff⟩

def diffAnalyze : Endpoint := ⟨"endpoint_diff_analyze", Contract.analysis⟩

def review : Endpoint := ⟨"endpoint_review", Contract.review⟩

/-- The answer to a request to parse a diff. -/
def answerParse (text : String) : Except Refusal Json :=
  diffParse.answer validator <|
    match ParsedDiff.parse text with
    | .error e => .error (.ofParseFailure e)
    | .ok diff => .ok diff.toJson

/-- The answer to a request to analyse files. -/
def answerAnalyze (config : Config) (files : List FileChange) : Except Refusal Json :=
  diffAnalyze.answer validator <|
    match config.engine {} with
    | .error e => .error (.ofLocale e)
    | .ok engine => .ok (engine.evaluate files).toJson

/-- The answer to a request to review a diff. -/
def answerReview (config : Config) (text : String) : Except Refusal Json :=
  review.answer validator <|
    match Review.runConfigured config text with
    | .error e => .error (.ofReviewFailure e)
    | .ok review => .ok review.toJson

end Endpoint
end DiffReview
