import EventQuery.Proofs.Engine.Reference
import EventQuery.Proofs.Failure.Request
import EventQuery.Proofs.Request.Consistent
import EventQuery.Proofs.Statement.Aggregate

/-!
# EventQuery.Proofs.Engine.Builders

The gate and the builders of statements agree. The gate refuses parameters or lets a consistent
request through (`Gate.consistent_of_request`), and for a request that it has let through nothing
goes wrong any more: whatever the window, the statistics and the kinds of the columns are, there is
a statement, and each aggregate in it has its column (`assembles_accepted_requests`).
-/

namespace EventQuery
namespace Engine

variable {s : Settings} {r : Request} {window : Option Window}
  {stats : Option (String × Statistics)}

/-- What is selected for an accepted request whose rows are not fetched. -/
theorem items?_assemble {a : Archetype} {project : String} {p : Params} {defaultLatest : Int}
    {kinds : List (String × ColumnKind)} {filters : List Filter} {st : Statement}
    (hgate : Gate.request a project p defaultLatest = .ok r) (hraw : ¬r.FetchesRows)
    (hcoerce : Filter.coerceAll kinds r.filters = .ok filters)
    (h : assemble s { r with filters } window stats = .ok st) :
    Statement.items? st.sql = some r.items := by
  obtain ⟨ps, hst, hformed, _⟩ := assemble_eq_ok h
  have hconsistent := Gate.consistent_of_request hgate
  obtain rfl := hconsistent.archetype
  have hextraction : r.archetype ≠ .extraction := fun ha => hraw (.inr (.inr (.inl ha)))
  have htarget := hconsistent.target hextraction
  exact Statement.items?_ofRequest (r := { r with filters }) hraw htarget
    ((Gate.accepted_of_request hgate).coerced hcoerce) hformed hst

end Engine
end EventQuery
