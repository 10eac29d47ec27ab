import EventQuery.Run
import EventQuery.Value.Order

/-!
# EventQuery.Backend.Memory

A backend in memory: a store and a cache in one value. Statements are told apart by what they
contain and answered from lists of rows, the documents of the cache are a list, and each place
where a call can fail may hold the outage that it fails with. `execute` runs a computation against
a backend and keeps the calls that were sent.
-/

namespace EventQuery

/-- Where a call can fail. -/
inductive Place where
  /-- Before a statement is sent. -/
  | acquire
  | project | stats | columns | rows
  | get | set
  deriving DecidableEq

structure Backend where
  projects : List Record := []
  rows : List Record := []
  columns : List Record := []
  stats : List Record := []
  documents : List (String × String) := []
  outages : List (Place × Outage) := []

namespace Backend

def containsList (part : List Char) : List Char → Bool
  | [] => part.isEmpty
  | c :: rest => part.isPrefixOf (c :: rest) || containsList part rest

def contains (part whole : String) : Bool := containsList part.toList whole.toList

/-- The place of a statement by what it contains. -/
def placeOf (s : Statement) : Place :=
  if contains "WHERE project_id = $1" s.sql then .project
  else if contains "STDDEV(" s.sql then .stats
  else if contains "information_schema" s.sql then .columns
  else .rows

/-- The rows that answer a statement. -/
def answer (b : Backend) (s : Statement) : List Record :=
  match placeOf s with
  | .project =>
    b.projects.filter fun p => (Record.value p "project_id").same (s.params.headD .null)
  | .stats => b.stats
  | .columns => b.columns
  | _ => b.rows

def outage? (b : Backend) (p : Place) : Option Outage := b.outages.lookup p

/-- What came of a run: its outcome, the backend after it, and the calls that were sent. -/
structure Trace (α : Type) where
  outcome : Outcome α
  backend : Backend
  calls : List Call

def Trace.sent {α : Type} (c : Call) (t : Trace α) : Trace α := { t with calls := c :: t.calls }

/-- Runs a computation. A failed statement changes nothing, and a failed write stores nothing. -/
def execute {α : Type} (b : Backend) : Run α → Trace α
  | .done outcome => ⟨outcome, b, []⟩
  | .statement s next =>
    match b.outage? .acquire with
    | some o => execute b (next (.error o))
    | none =>
      (match b.outage? (placeOf s) with
        | some o => execute b (next (.error o))
        | none => execute b (next (.ok (b.answer s)))).sent (.statement s)
  | .get key next =>
    (match b.outage? .get with
      | some o => execute b (next (.error o))
      | none => execute b (next (.ok (b.documents.lookup key)))).sent (.get key)
  | .set key text next =>
    (match b.outage? .set with
      | some o => execute b (next (.error o))
      | none =>
        execute { b with documents := Assoc.set key text b.documents } (next (.ok ()))).sent
      (.set key text)

/-- What comes after a run is executed against the backend that the run leaves. -/
def Trace.andThen {α β : Type} (t : Trace α) (f : α → Run β) : Trace β :=
  match t.outcome with
  | .ok a =>
    let after := execute t.backend (f a)
    { after with calls := t.calls ++ after.calls }
  | .error e => ⟨.error e, t.backend, t.calls⟩

theorem Trace.sent_andThen {α β : Type} (c : Call) (t : Trace α) (f : α → Run β) :
    (t.sent c).andThen f = (t.andThen f).sent c := by
  obtain ⟨outcome, b, calls⟩ := t
  cases outcome <;> simp [Trace.andThen, Trace.sent]

/-- A run in two parts sends the calls of the first, then those of the second. -/
theorem execute_bind {α β : Type} (b : Backend) (r : Run α) (f : α → Run β) :
    execute b (r.bind f) = (execute b r).andThen f := by
  induction r generalizing b with
  | done o => cases o <;> simp [Run.bind, execute, Trace.andThen]
  | statement s next ih =>
    simp only [Run.bind, execute]
    split
    · exact ih _ _
    · rw [Trace.sent_andThen]
      split <;> rw [ih]
  | get key next ih =>
    simp only [Run.bind, execute, Trace.sent_andThen]
    split <;> rw [ih]
  | set key text next ih =>
    simp only [Run.bind, execute, Trace.sent_andThen]
    split <;> rw [ih]

end Backend
end EventQuery
