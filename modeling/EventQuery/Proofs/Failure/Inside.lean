import EventQuery.Proofs.Failure.Answer
import EventQuery.Proofs.Failure.Request
import EventQuery.Proofs.Run.Exchange

/-!
# EventQuery.Proofs.Failure.Inside

Failures behind the door. `Run.FailsOnly p r`: every failure that the run `r` may end in, whatever
it is answered, satisfies `p`. Neither the gate nor the execution of a request ends in one of the
failures of the door (`Failure.Inside`, `Engine.failsOnly_execute`): a caller who has been let in is
not turned away later on.
-/

namespace EventQuery

/-- The failures of the door. -/
def Failure.TurnsAway : Failure → Prop
  | noCredentials | projectNotFound | keyNotAuthorized => True
  | _ => False

/-- The failures behind the door. -/
def Failure.Inside (e : Failure) : Prop := ¬e.TurnsAway

namespace Outcome

variable {α : Type} {o : Outcome α}

theorem FailsAmong.inside {faults : List Fault} (h : FailsAmong faults o) :
    FailsOnly Failure.Inside o := by
  refine FailsOnly.mono h fun e he => ?_
  cases e with
  | badQuery why => exact id
  | fault cause => exact id
  | _ => exact he.elim

theorem FailsOnly.inside (h : FailsOnly Failure.OfParameters o) : FailsOnly Failure.Inside o := by
  refine h.mono fun e he => ?_
  cases e with
  | targetNotProvided => exact id
  | badQuery why => exact id
  | _ => exact he.elim

end Outcome

namespace Run

variable {α β : Type} {p : Failure → Prop}

def FailsOnly (p : Failure → Prop) (r : Run α) : Prop := ∀ xs e, r.EndsIn xs (.error e) → p e

theorem failsOnly_ofOutcome {o : Outcome α} (h : o.FailsOnly p) : (ofOutcome o).FailsOnly p := by
  intro xs e hends
  obtain ⟨_, ho⟩ := endsIn_done.mp hends
  exact h e ho.symm

theorem failsOnly_ok (a : α) : (done (.ok a)).FailsOnly p :=
  failsOnly_ofOutcome (Outcome.failsOnly_ok a)

theorem failsOnly_fail {e : Failure} (h : p e) : (fail e : Run α).FailsOnly p :=
  failsOnly_ofOutcome (Outcome.failsOnly_error h)

theorem FailsOnly.bind {r : Run α} {f : α → Run β} (hr : r.FailsOnly p)
    (hf : ∀ a, (f a).FailsOnly p) : (r.bind f).FailsOnly p := by
  intro xs e hends
  rcases hends.split_any with ⟨_, he, ho⟩ | ⟨a, ys, zs, _, _, hrest⟩
  · cases ho
    exact hr xs e he
  · exact hf a zs e hrest

theorem failsOnly_ofOutcome_bind {o : Outcome α} {f : α → Run β} (h : o.FailsOnly p)
    (hf : ∀ a, (f a).FailsOnly p) : ((ofOutcome o).bind f).FailsOnly p :=
  (failsOnly_ofOutcome h).bind hf

end Run

open Outcome Run

/-! ## The store and the cache -/

namespace Client

variable {s : Settings}

theorem inside_storeFailure (o : Outage) : (storeFailure s o).Inside := by
  unfold storeFailure
  split
  · exact id
  · exact id
  · exact id

theorem inside_cacheFailure (o : Outage) : (cacheFailure s o).Inside := by
  unfold cacheFailure
  split
  · exact id
  · exact id
  · exact id
  · exact id

theorem failsAmong_document (key raw : String) : FailsAmong [] (document key raw) := by
  unfold document
  split
  · exact failsAmong_complain _
  · exact failsAmong_ok _
  · exact failsAmong_complain _

theorem failsOnly_fetch (st : Statement) : (fetch s st).FailsOnly Failure.Inside := by
  intro xs e hends
  cases hends with
  | @statement _ _ answer _ _ hends =>
    cases answer with
    | ok rows => exact Run.failsOnly_ok _ _ _ hends
    | error o => exact failsOnly_fail (inside_storeFailure o) _ _ hends

theorem failsOnly_fetchOne (st : Statement) : (fetchOne s st).FailsOnly Failure.Inside :=
  (failsOnly_fetch st).bind fun _ => Run.failsOnly_ok _

theorem failsOnly_read (key : String) : (read s key).FailsOnly Failure.Inside := by
  unfold read
  split
  · exact failsOnly_fail id
  · intro xs e hends
    cases hends with
    | @get _ _ answer _ _ hends =>
      cases answer with
      | ok raw =>
        cases raw with
        | none => exact Run.failsOnly_ok _ _ _ hends
        | some raw =>
          exact failsOnly_ofOutcome (failsAmong_document key raw).inside.map _ _ hends
      | error o => exact failsOnly_fail (inside_cacheFailure o) _ _ hends

theorem failsOnly_write (key : String) (v : Value) : (write s key v).FailsOnly Failure.Inside := by
  unfold write
  split
  · exact failsOnly_fail id
  · split
    · exact failsOnly_fail id
    · intro xs e hends
      cases hends with
      | @set _ _ _ answer _ _ hends =>
        cases answer with
        | ok _ => exact Run.failsOnly_ok _ _ _ hends
        | error o => exact failsOnly_fail (inside_cacheFailure o) _ _ hends

end Client

/-! ## Requests -/

theorem Statistics.failsOnly_get (s : Settings) (project collection property : Value) :
    (Statistics.get s project collection property).FailsOnly Failure.Inside := by
  refine (Client.failsOnly_read _).bind fun found => ?_
  cases found with
  | some fields =>
    dsimp only
    split
    · exact Run.failsOnly_ok _
    · exact failsOnly_fail id
  | none =>
    refine failsOnly_ofOutcome_bind (Statement.failsAmong_statistics _ _ _).inside fun st => ?_
    refine (Client.failsOnly_fetchOne st).bind fun row => ?_
    split
    · exact failsOnly_fail id
    · exact (Client.failsOnly_write _ _).bind fun _ => Run.failsOnly_ok _

namespace Engine

variable {s : Settings}

theorem failsOnly_coerceFilters (r : Request) : (coerceFilters s r).FailsOnly Failure.Inside := by
  have hkinds : (columnKinds s (.text r.project) (.text r.collection)).FailsOnly
      Failure.Inside := by
    refine failsOnly_ofOutcome_bind (Statement.failsAmong_columnTypes _ _).inside fun st => ?_
    refine (Client.failsOnly_fetch st).bind fun rows => ?_
    exact failsOnly_ofOutcome (failsAmong_columnsOf _).inside.map
  unfold coerceFilters
  split
  · exact Run.failsOnly_ok _
  · refine hkinds.bind fun kinds => ?_
    refine failsOnly_ofOutcome_bind (Filter.failsAmong_coerceAll _ _).inside fun filters => ?_
    exact Run.failsOnly_ok _

theorem failsOnly_outlierStatistics (r : Request) :
    (outlierStatistics s r).FailsOnly Failure.Inside := by
  unfold outlierStatistics
  split
  · exact Run.failsOnly_ok _
  · exact (Statistics.failsOnly_get _ _ _ _).bind fun _ => Run.failsOnly_ok _

theorem failsOnly_compile (r : Request) (now : DateTime) :
    (compile s r now).FailsOnly Failure.Inside := by
  refine failsOnly_ofOutcome_bind (Timeframe.failsAmong_resolve _ _).inside fun window => ?_
  refine (failsOnly_outlierStatistics r).bind fun stats => ?_
  exact failsOnly_ofOutcome (failsAmong_assemble _ _ _ _).inside

theorem failsOnly_execute (r : Request) (now : DateTime) :
    (execute s r now).FailsOnly Failure.Inside := by
  refine (failsOnly_coerceFilters r).bind fun r => ?_
  refine (failsOnly_compile r now).bind fun st => ?_
  refine (Client.failsOnly_fetch st).bind fun rows => ?_
  dsimp only
  split
  · refine failsOnly_ofOutcome_bind (Filter.failsAmong_selectAll _ _).inside fun kept => ?_
    exact failsOnly_ofOutcome (Shape.failsAmong_ofRows _ _).inside
  · exact failsOnly_ofOutcome (Shape.failsAmong_ofRows _ _).inside

end Engine
end EventQuery
