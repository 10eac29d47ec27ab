import EventQuery.Engine
import EventQuery.History
import EventQuery.Http.Path
import EventQuery.Http.Routing
import EventQuery.Listing
import EventQuery.Text.Case

/-!
# EventQuery.Http.Answer

Requests over HTTP and their answers. An answer is a status and a body: an envelope that says
whether the query went well, or a plain text for a fault.
-/

namespace EventQuery
namespace Http

structure Request where
  /-- The method, in any case. -/
  method : String
  target : String
  /-- Parameters beside those of the target. -/
  params : List (String × String)

inductive Body where
  | json (v : Value)
  | text (s : String)

structure Answer where
  status : Nat
  body : Body

/-- The last parameter of a name; those of the target come first. -/
def Request.param? (r : Request) (name : String) : Option String :=
  ((Target.of r.target).params ++ r.params).reverse.lookup name

/-- The method in upper case. -/
def Request.verb (r : Request) : String := String.ofList (Text.raised r.method.toList)

/-! ## Bodies -/

mutual

/-- A value as JSON can hold it: a double that is no number becomes null, times and decimals
become text, and tuples become arrays. -/
def plain : Value → Value
  | .float x => if x.isFinite then .float x else .null
  | .decimal d => .text d.text
  | .date d => .text d.text
  | .datetime t => .text t.shortText
  | .array items | .tuple items => .array (plainItems items)
  | .object fields => .object (plainFields fields)
  | v => v

def plainItems : List Value → List Value
  | [] => []
  | v :: rest => plain v :: plainItems rest

def plainFields : List (String × Value) → List (String × Value)
  | [] => []
  | (k, v) :: rest => (k, plain v) :: plainFields rest

end

def success (v : Value) : Answer :=
  ⟨200, .json (.object [("ok", .bool true), ("results", plain v)])⟩

/-- The answer for a failure. -/
def failure (e : Failure) : Answer :=
  match e.refusal? with
  | some (kind, message) => ⟨kind.status, .json (.object (kind.envelope message))⟩
  | none => ⟨500, .text "Internal Server Error"⟩

def unknownQuery : Answer :=
  ⟨400, .json (.object [("ok", .bool false), ("results", .text "This is not a valid query!")])⟩

/-- An answer with a word on what is wrong with the request itself. -/
def detail (status : Nat) (text : String) : Answer :=
  ⟨status, .json (.object [("detail", .text text)])⟩

def healthy : Answer := ⟨200, .json (.object [("status", .text "healthy")])⟩

/-! ## Endpoints -/

def queryParams (r : Request) : Params where
  readKey := r.param? "readKey"
  masterKey := r.param? "masterKey"
  eventCollection := r.param? "event_collection"
  targetProperty := r.param? "target_property"
  percentile := r.param? "percentile"
  groupBy := r.param? "group_by"
  latest := r.param? "latest"
  interval := r.param? "interval"
  outliers := r.param? "outliers"
  outliersIn := r.param? "outliers_in"
  filters := r.param? "filters"
  timeframe := r.param? "timeframe"
  concatResults := r.param? "concat_results"

def historyParams (r : Request) : History.Params where
  readKey := r.param? "readKey"
  masterKey := r.param? "masterKey"
  eventCollection := r.param? "event_collection"
  targetProperty := r.param? "target_property"
  type := r.param? "type"
  date := r.param? "dt"

/-- The answer with the outcome of a run in it. -/
def answerWith (r : Run Value) : Run Answer :=
  r.handle fun
    | .ok v => .ok (success v)
    | .error e => .ok (failure e)

/-- Answers what a request asks for. -/
def respond (s : Settings) (r : Request) (now : DateTime) : Run Answer :=
  match Route.of r.verb (Target.of r.target).decodedPath with
  | .query a project => answerWith (Engine.run s a project (queryParams r) now)
  | .history project =>
    answerWith (return (← History.view s project (historyParams r) now.date).toValue)
  | .collections project =>
    answerWith (return Listing.toValue (← Listing.list s project (r.param? "masterKey")))
  | .unknownQuery => return unknownQuery
  | .health => return healthy
  | .wrongMethod => return detail 405 "Method Not Allowed"
  | .redirect => return ⟨307, .text ""⟩
  | .notFound => return detail 404 "Not Found"

/-- Answers a request at a time. A request for the head alone gets no body. -/
def answer (s : Settings) (r : Request) (now : DateTime) : Run Answer := do
  let a ← respond s r now
  return if r.verb == "HEAD" then { a with body := .text "" } else a

end Http
end EventQuery
