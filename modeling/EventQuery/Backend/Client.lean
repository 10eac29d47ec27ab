import EventQuery.Binary64.Shortest
import EventQuery.Json.Printer
import EventQuery.Json.Reader
import EventQuery.Run
import EventQuery.Settings

/-!
# EventQuery.Backend.Client

The store and the cache as the program uses them. Outages become refusals in the words of the
backend, or in a fixed phrase where those are to stay hidden. The store's decimals become doubles;
the cache holds one JSON object under each key.
-/

namespace EventQuery
namespace Client

/-- The phrase in place of the words of a backend. -/
def hiddenText : String := "The query could not be executed"

/-- The refusal for the words of an outage. -/
def refusal (s : Settings) (text : String) : Failure :=
  .badQuery (.backend (if s.exposeErrors then text else hiddenText))

/-- An outage of the store. -/
def storeFailure (s : Settings) (o : Outage) : Failure :=
  match o.kind with
  | .timeout =>
    refusal s ("Query timed out after " ++ s.queryTimeout.general ++ " seconds")
  | .cache => .fault (.outage .cache)
  | kind => refusal s (if o.text.isEmpty then kind.name else o.text)

def cacheTimedOut (s : Settings) : Failure :=
  refusal s ("Cache call timed out after " ++ s.cacheTimeout.general ++ " seconds")

/-- An outage of the cache. -/
def cacheFailure (s : Settings) (o : Outage) : Failure :=
  match o.kind with
  | .timeout => cacheTimedOut s
  | .cache | .network => refusal s ("Cache error: " ++ o.text)
  | kind => .fault (.outage kind)

mutual

/-- A value of a row: decimals, also inside arrays, become the nearest double. -/
def decode : Value → Value
  | .decimal d => .float d.toBinary64
  | .array items => .array (decodeItems items)
  | v => v

def decodeItems : List Value → List Value
  | [] => []
  | v :: rest => decode v :: decodeItems rest

end

def decodeRecord (r : Record) : Record := r.map fun (k, v) => (k, decode v)

/-- The rows of a statement. -/
def fetch (s : Settings) (statement : Statement) : Run (List Record) :=
  .statement statement fun
    | .ok rows => .done (.ok (rows.map decodeRecord))
    | .error o => .fail (storeFailure s o)

/-- The first row of a statement, if there is one. -/
def fetchOne (s : Settings) (statement : Statement) : Run (Option Record) := do
  return (← fetch s statement).head?

/-- The object that a document of the cache holds. -/
def document (key : String) (raw : String) : Outcome Record :=
  match Json.read? raw with
  | none => complain (.cachedText key)
  | some (.object fields) => .ok fields
  | some _ => complain (.cachedShape key)

/-- Whether calls of the cache have no time at all; they then time out before they are sent. -/
def isOutOfTime (s : Settings) : Bool := s.cacheTimeout.atMost .zero

/-- The object under a key, if there is one. -/
def read (s : Settings) (key : String) : Run (Option Record) :=
  if isOutOfTime s then .fail (cacheTimedOut s)
  else
    .get key fun
      | .ok none => .done (.ok none)
      | .ok (some raw) => .done ((document key raw).map some)
      | .error o => .fail (cacheFailure s o)

/-- Stores a value under a key. -/
def write (s : Settings) (key : String) (v : Value) : Run Unit :=
  match Json.text? v with
  | none => .fail (.fault .notJson)
  | some text =>
    if isOutOfTime s then .fail (cacheTimedOut s)
    else
      .set key text fun
        | .ok () => .done (.ok ())
        | .error o => .fail (cacheFailure s o)

end Client
end EventQuery
