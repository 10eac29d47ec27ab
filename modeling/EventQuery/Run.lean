import EventQuery.Failure
import EventQuery.Statement.Basic

/-!
# EventQuery.Run

A computation that talks to the store and the cache, as the tree of its calls: each call comes with
what follows for every answer it may get. A tree has no answers in it, so the same run can be
executed against any backend, or taken apart call by call.
-/

namespace EventQuery

/-- A call of a backend, as it is sent. -/
inductive Call where
  | statement (s : Statement)
  | get (key : String)
  | set (key text : String)

inductive Run (α : Type) where
  | done (outcome : Outcome α)
  /-- Sends a statement to the store; rows or an outage come back. -/
  | statement (s : Statement) (next : Except Outage (List Record) → Run α)
  /-- Reads a document of the cache, if there is one under the key. -/
  | get (key : String) (next : Except Outage (Option String) → Run α)
  /-- Stores a document in the cache. -/
  | set (key text : String) (next : Except Outage Unit → Run α)

namespace Run

/-- Continues a run with the value of its outcome; a failure ends it. -/
def bind {α β : Type} (r : Run α) (f : α → Run β) : Run β :=
  match r with
  | done (.ok a) => f a
  | done (.error e) => done (.error e)
  | statement s next => statement s fun answer => (next answer).bind f
  | get key next => get key fun answer => (next answer).bind f
  | set key text next => set key text fun answer => (next answer).bind f

instance : Monad Run where
  pure a := done (.ok a)
  bind := bind

@[simp] theorem done_ok_bind {α β : Type} (a : α) (f : α → Run β) :
    (done (.ok a)).bind f = f a := rfl

@[simp] theorem done_error_bind {α β : Type} (e : Failure) (f : α → Run β) :
    (done (.error e)).bind f = done (.error e) := rfl

theorem bind_done_ok {α : Type} (r : Run α) : (r.bind fun a => done (.ok a)) = r := by
  induction r with
  | done o => cases o <;> rfl
  | statement s next ih => simp [bind, ih]
  | get key next ih => simp [bind, ih]
  | set key text next ih => simp [bind, ih]

theorem bind_assoc {α β γ : Type} (r : Run α) (f : α → Run β) (g : β → Run γ) :
    (r.bind f).bind g = r.bind fun a => (f a).bind g := by
  induction r with
  | done o => cases o <;> rfl
  | statement s next ih => simp [bind, ih]
  | get key next ih => simp [bind, ih]
  | set key text next ih => simp [bind, ih]

/-- An outcome that takes no call. -/
def ofOutcome {α : Type} (o : Outcome α) : Run α := done o

/-- A run that ends with a failure. -/
def fail {α : Type} (e : Failure) : Run α := done (.error e)

/-- A run that goes on with its outcome, whether a value or a failure. -/
def handle {α β : Type} (r : Run α) (f : Outcome α → Outcome β) : Run β :=
  match r with
  | done o => done (f o)
  | statement s next => statement s fun answer => (next answer).handle f
  | get key next => get key fun answer => (next answer).handle f
  | set key text next => set key text fun answer => (next answer).handle f

end Run
end EventQuery
