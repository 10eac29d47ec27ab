import EventQuery.Project
import EventQuery.Rollup
import EventQuery.Value.Moment

/-!
# EventQuery.History

Views of the rollup that the cache keeps for a property.
-/

namespace EventQuery
namespace History

/-- The parameters of a view, as they were given. -/
structure Params where
  readKey : Option String := none
  masterKey : Option String := none
  eventCollection : Option String := none
  targetProperty : Option String := none
  type : Option String := none
  /-- The date that the view refers to. -/
  date : Option String := none

/-- The type of a view by its name. -/
def viewType (raw : Option String) : Outcome Rollup.ViewType :=
  match raw.bind Rollup.ViewType.ofName? with
  | some t => .ok t
  | none => complain .viewType

/-- The date that a timestamp shows, or today when there is none. -/
def referenceDate (raw : Option String) (today : Date) : Outcome Date :=
  match present raw with
  | none => .ok today
  | some s =>
    match Timestamp.read? s with
    | none => complain (.referenceDate s)
    | some t => if t.date.inYears then .ok t.date else faulty .yearUnnamed

/-- Reads a view. A view of a day needs a date. -/
def view (s : Settings) (project : String) (p : Params) (today : Date) : Run Rollup.View := do
  discard (Project.enter s project ⟨p.readKey, p.masterKey⟩)
  let collection ← Run.ofOutcome (Name.flat "event collection" (.ofText? p.eventCollection))
  match present p.targetProperty with
  | none => .fail .targetNotProvided
  | some target => do
    let property ← Run.ofOutcome (Name.property "target property" (.text target))
    let type ← Run.ofOutcome (viewType p.type)
    if type = .day && (present p.date).isNone then .fail (.badQuery .dayWithoutDate)
    let reference ← Run.ofOutcome (referenceDate p.date today)
    let rollup ← Client.read s (Name.rollupKey project collection property)
    .ofOutcome (Rollup.view (rollup.getD []) type reference)

end History
end EventQuery
