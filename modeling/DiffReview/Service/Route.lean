import DiffReview.Service.Endpoint
import DiffReview.Wire.Decode

/-!
# Routes

A request is answered by the route of its path. Paths are compared exactly, except that one newline
may end a path, and every path has one method. The body of a request is read before the endpoint
runs, and its flaws are reported to the client with their places below `body` and with the offending
values. Internal fields are left out of these values, at every depth.
-/

namespace DiffReview

/-! ## Reports of flaws -/

/-- An internal field has a name that starts with `_sa`. -/
def isInternal (name : String) : Bool := "_sa".toList.isPrefixOf name.toList

namespace Json

mutual

/-- A value without the internal fields of its objects, at every depth. -/
def withoutInternal : Json → Json
  | .arr items => .arr (itemsWithoutInternal items)
  | .obj fields => .obj (fieldsWithoutInternal fields)
  | v => v

def itemsWithoutInternal : List Json → List Json
  | [] => []
  | v :: vs => withoutInternal v :: itemsWithoutInternal vs

def fieldsWithoutInternal : List (String × Json) → List (String × Json)
  | [] => []
  | (name, v) :: fs =>
    if isInternal name then fieldsWithoutInternal fs
    else (name, withoutInternal v) :: fieldsWithoutInternal fs

end

end Json

namespace Flaw

/-- The report of a flaw of a request body. -/
def report (flaw : Flaw) : Json :=
  let told := match flaw.defect with
    | .notObject _ =>
      ("model_attributes_type",
        "Input should be a valid dictionary or object to extract fields from")
    | defect => (defect.kind, defect.message)
  .obj ([("type", .str told.1),
    ("loc", .arr (.str "body" :: flaw.path.map Step.toJson)),
    ("msg", .str told.2),
    ("input", flaw.input.withoutInternal)] ++ flaw.defect.context)

end Flaw

/-! ## Requests and responses -/

/-- A request; no body stands for an empty one. -/
structure Request where
  method : String
  path : String
  body : Option Json

/-- A status and a body. -/
structure Response where
  status : Nat
  body : Json

namespace Response

/-- The response that gives a detail. -/
def refuse (status : Nat) (detail : Json) : Response := ⟨status, .obj [("detail", detail)]⟩

/-- The response that an answer makes. -/
def ofAnswer : Except Refusal Json → Response
  | .ok result => ⟨200, result⟩
  | .error refusal => refuse refusal.status refusal.detail

/-- Reads the body of a request and goes on with what it holds. -/
def withBody {α : Type} (request : Request) (read : Json → Checked α)
    (answer : α → Except Refusal Json) : Response :=
  let checked : Checked α := match request.body with
    | none => .flawed [⟨[], .missing, .null⟩]
    | some body => read body
  match checked with
  | .ok a => ofAnswer (answer a)
  | .flawed flaws => refuse 422 (.arr (flaws.map Flaw.report))

/-- The answer to a health check: the languages that have rules, sorted by name. -/
def health (config : Config) : Response :=
  match config.engine {} with
  | .error _ => ⟨500, .str "Internal Server Error"⟩
  | .ok engine =>
    ⟨200, .obj
      [("status", .str "healthy"),
       ("locale", .str config.locale),
       ("languages", .arr (((engine.ruleSets.map (·.1)).mergeSort (· ≤ ·)).map .str))]⟩

end Response

/-- A path that is served. -/
inductive Route
  | health
  | diffParse
  | diffAnalyze
  | review
deriving DecidableEq

namespace Route

/-- A path without the newline that may end it. -/
def withoutNewline (path : String) : String :=
  let cs := path.toList
  if cs.getLast? = some '\n' then String.ofList cs.dropLast else path

/-- The route of a path. -/
def ofPath? (path : String) : Option Route :=
  match withoutNewline path with
  | "/health" => some .health
  | "/api/v1/diff/parse" => some .diffParse
  | "/api/v1/diff/analyze" => some .diffAnalyze
  | "/api/v1/review" => some .review
  | _ => none

def method : Route → String
  | .health => "GET"
  | _ => "POST"

/-- The response of a route. -/
def respond (validator : Validator) (config : Config) (request : Request) : Route → Response
  | .health => .health config
  | .diffParse => .withBody request readDiffContent (Endpoint.answerParse validator)
  | .diffAnalyze => .withBody request readFiles (Endpoint.answerAnalyze validator config)
  | .review => .withBody request readDiffContent (Endpoint.answerReview validator config)

end Route

/-- The response to a request. -/
def respond (validator : Validator) (config : Config) (request : Request) : Response :=
  match Route.ofPath? request.path with
  | none => .refuse 404 (.str "Not Found")
  | some route =>
    if request.method = route.method then route.respond validator config request
    else .refuse 405 (.str "Method Not Allowed")

end DiffReview
