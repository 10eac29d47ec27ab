import EventQuery.Proofs.Engine.Course
import EventQuery.Proofs.Engine.Reference

/-!
# EventQuery.Proofs.Engine.Undated

Queries with a timeframe that stands for no window. Such a query fails, and it never comes to the
cache, to statistics or to its own statement. It reads its filters before its timeframe, though, so
with filters it has asked for the columns of its collection by then (`Undated`). So it sends nothing
but the lookup of its project exactly when it has no filters or its caller is not let in
(`looksUpOnly_iff`).
-/

namespace EventQuery

open Run

namespace Engine

variable {s : Settings} {a : Archetype} {project : String} {p : Params} {now : DateTime}
  {r : Request} {e : Failure}

/-- What a query can come to when its timeframe fails. -/
inductive Undated (s : Settings) (project : String) (p : Params) (r : Request) (e : Failure) :
    List Exchange → Outcome Value → Prop where
  | denied {xs : List Exchange} {e' : Failure} :
      Project.Entry s project (.ofKeys p.readKey p.masterKey) xs (.error e') →
      Undated s project p r e xs (.error e')
  | unfiltered {xs : List Exchange} {who : Project} :
      Project.Entry s project (.ofKeys p.readKey p.masterKey) xs (.ok who) → r.filters = [] →
      Undated s project p r e xs (.error e)
  | filtered {xs : List Exchange} {who : Project} {st : Statement}
      {answer : Except Outage (List Record)} {e' : Failure} :
      Project.Entry s project (.ofKeys p.readKey p.masterKey) xs (.ok who) → r.filters ≠ [] →
      Statement.columnTypes (.text r.project) (.text r.collection) = .ok st →
      Undated s project p r e (xs ++ [.statement st answer]) (.error e')

/-- Filters are read with one call, which asks for columns; without filters there is none. -/
theorem exchanges_of_coerceFilters {xs : List Exchange} {o : Outcome Request}
    (hproject : Name.isFlat r.project = true) (hcollection : Name.isFlat r.collection = true)
    (h : (coerceFilters s r).EndsIn xs o) :
    (r.filters = [] ∧ xs = [] ∧ o = .ok r) ∨ (r.filters ≠ [] ∧ ∃ st answer,
      Statement.columnTypes (.text r.project) (.text r.collection) = .ok st ∧
        xs = [.statement st answer]) := by
  unfold coerceFilters at h
  split at h
  · rename_i hnone
    obtain ⟨rfl, rfl⟩ := endsIn_done.mp h
    exact .inl ⟨by simpa using hnone, rfl, rfl⟩
  · rename_i hsome
    obtain ⟨st, hst⟩ :
        ∃ st, Statement.columnTypes (.text r.project) (.text r.collection) = .ok st := by
      rw [Statement.columnTypes, Name.flat_of_isFlat _ hproject, Name.flat_of_isFlat _ hcollection]
      exact ⟨_, rfl⟩
    have hkinds : columnKinds s (.text r.project) (.text r.collection) =
        (Client.fetch s st).bind fun rows => .ofOutcome
          ((columnsOf (rows.filter (ofTable (Name.tableName r.project r.collection)))).map
            Assoc.ofList) := by
      unfold columnKinds
      rw [hst]
      rfl
    have hends : ((columnKinds s (.text r.project) (.text r.collection)).bind fun kinds =>
        (ofOutcome (Filter.coerceAll kinds r.filters)).bind fun filters =>
          .done (.ok { r with filters })).EndsIn xs o := h
    rw [hkinds, Run.bind_assoc] at hends
    obtain ⟨answer, rfl⟩ := last_of_fetch (fun rows => within_bind_ofOutcome fun kinds _ =>
      within_bind_ofOutcome fun filters _ => within_ok trivial) hends
    exact .inr ⟨by simpa using hsome, st, answer, hst, rfl⟩

/-- A caller let in, and the filters read with an outcome `o`. Without filters it is the timeframe
that fails. -/
theorem undated_of_coerceFilters {xs ys : List Exchange} {who : Project} {o : Outcome Request}
    {e' : Failure} (hgate : Gate.request a project p s.globalLimit = .ok r)
    (hentry : Project.Entry s project (.ofKeys p.readKey p.masterKey) xs (.ok who))
    (hcoerce : (coerceFilters s r).EndsIn ys o) (hfails : o = .ok r → e' = e) :
    Undated s project p r e (xs ++ ys) (.error e') := by
  obtain ⟨_, hproject, _⟩ := Gate.request_eq_ok hgate
  have hcollection := (Gate.accepted_of_request hgate).collection
  rcases exchanges_of_coerceFilters (hproject ▸ hentry.isFlat) hcollection hcoerce with
    ⟨hnone, rfl, ho⟩ | ⟨hsome, st, answer, hst, rfl⟩
  · rw [List.append_nil, hfails ho]
    exact .unfiltered hentry hnone
  · exact .filtered hentry hsome hst

/-- Reading the filters leaves the timeframe alone. -/
theorem Ready.timeframe_eq {xs : List Exchange} {r' : Request} (h : Ready s a project p xs r')
    (hgate : Gate.request a project p s.globalLimit = .ok r) : r'.timeframe = r.timeframe := by
  obtain ⟨_, hgate', hcoerce⟩ := h
  cases hgate.symm.trans hgate'
  obtain ⟨filters, rfl⟩ := (coerceFilters_within.of_endsIn hcoerce).2 _ rfl
  rfl

theorem undated_of_run {xs : List Exchange} {o : Outcome Value}
    (h : (run s a project p now).EndsIn xs o)
    (hgate : Gate.request a project p s.globalLimit = .ok r)
    (hundated : Timeframe.resolve (.ofText? r.timeframe) now = .error e) :
    Undated s project p r e xs o := by
  have hnever : ∀ {ys r' window}, Ready s a project p ys r' →
      Timeframe.resolve (.ofText? r'.timeframe) now ≠ .ok window := by
    intro ys r' window hready hwindow
    rw [hready.timeframe_eq hgate, hundated] at hwindow
    cases hwindow
  cases course_of_run h with
  | denied hentry => exact .denied hentry
  | refused _ hrefused => cases hgate.symm.trans hrefused
  | uncoerced hentry hgate' hcoerce =>
    cases hgate.symm.trans hgate'
    exact undated_of_coerceFilters hgate hentry hcoerce fun hread => by cases hread
  | undated hready hundated' =>
    rw [hready.timeframe_eq hgate, hundated] at hundated'
    cases hundated'
    obtain ⟨hentry, hgate', hcoerce⟩ := hready
    cases hgate.symm.trans hgate'
    exact undated_of_coerceFilters hgate hentry hcoerce fun _ => rfl
  | unmeasured hready hwindow _ => exact absurd hwindow (hnever hready)
  | unbuilt hready hwindow _ _ => exact absurd hwindow (hnever hready)
  | sent hprepared =>
    obtain ⟨hready, hwindow, _, _⟩ := hprepared
    exact absurd hwindow (hnever hready)

/-- A query whose timeframe stands for no window fails, and asks for columns at most. It only looks
its project up exactly when it has no filters or its caller is not let in. -/
theorem looksUpOnly_iff {xs : List Exchange} {o : Outcome Value}
    (h : (run s a project p now).EndsIn xs o)
    (hgate : Gate.request a project p s.globalLimit = .ok r)
    (hundated : Timeframe.resolve (.ofText? r.timeframe) now = .error e) :
    (∃ e', o = .error e') ∧
    (∀ who, Project.Entry s project (.ofKeys p.readKey p.masterKey) xs (.ok who) →
      o = .error e) ∧
    (∀ x ∈ xs, Project.IsLookup s project x.call ∨ r.filters ≠ [] ∧
      x.call.Sends (Statement.columnTypes (.text r.project) (.text r.collection))) ∧
    ((∀ x ∈ xs, Project.IsLookup s project x.call) ↔ r.filters = [] ∨
      ∃ e', Project.Entry s project (.ofKeys p.readKey p.masterKey) xs (.error e')) := by
  obtain ⟨_, hproject, _⟩ := Gate.request_eq_ok hgate
  cases undated_of_run h hgate hundated with
  | @denied _ e' hentry =>
    refine ⟨⟨e', rfl⟩, fun who hadmitted => ?_, fun x hx => .inl (hentry.isLookup x hx),
      fun _ => .inr ⟨e', hentry⟩, fun _ => hentry.isLookup⟩
    cases hentry.deterministic hadmitted
  | unfiltered hentry hnone =>
    exact ⟨⟨e, rfl⟩, fun _ _ => rfl, fun x hx => .inl (hentry.isLookup x hx), fun _ => .inl hnone,
      fun _ => hentry.isLookup⟩
  | @filtered ys who st answer e' hentry hsome hst =>
    -- the statement for columns is no lookup, so no caller comes to the door with it
    have hlate : ¬∀ x ∈ ys ++ [.statement st answer], Project.IsLookup s project x.call := by
      intro hall
      have hlookup := (hall (.statement st answer) (by simp)).stage
      have hcolumns := stage_columnTypes hst
      rw [hproject] at hcolumns
      exact absurd (hlookup.symm.trans hcolumns) (by decide)
    refine ⟨⟨e', rfl⟩, fun _ hadmitted => absurd hadmitted.isLookup hlate, fun x hx => ?_,
      fun hall => absurd hall hlate, ?_⟩
    · rcases List.mem_append.mp hx with hx | hx
      · exact .inl (hentry.isLookup x hx)
      · cases List.mem_singleton.mp hx
        exact .inr ⟨hsome, st, rfl, hst⟩
    · rintro (hnone | ⟨_, hdenied⟩)
      · exact absurd hnone hsome
      · exact hdenied.isLookup

/-! ## A timeframe that reaches too far back -/

/-- A caller who counts the measurements of three thousand years. -/
def historian : Params where
  readKey := some "r1"
  eventCollection := some "measurements"
  timeframe := some "this_3000_years"

def tooFarBack : Failure := .badQuery (.timeframeRange "this_3000_years")

theorem looksUpOnly_historian :
    (run patient .count "p1" historian noon).EndsIn [findsProject] (.error tooFarBack) ∧
      ∀ x ∈ [findsProject], Project.IsLookup patient "p1" x.call := by
  have h : (run patient .count "p1" historian noon).EndsIn [findsProject] (.error tooFarBack) :=
    .statement .done
  obtain ⟨_, _, _, hiff⟩ := looksUpOnly_iff h rfl rfl
  exact ⟨h, hiff.mpr (.inl rfl)⟩

/-- The same, but for the measurements of one device. -/
def choosyHistorian : Params := { historian with filters := surprised.filters }

def choosyRequest : Request where
  archetype := .count
  project := "p1"
  collection := "measurements"
  target := none
  targets := []
  rank := none
  groupBy := none
  latest := 5000
  interval := none
  outliers := .include
  outliersIn := none
  filters := lastOutliers.filters
  timeframe := some "this_3000_years"
  byColumn := false

def findsDevice : Exchange :=
  .statement ⟨"SELECT table_name, column_name, data_type FROM information_schema.columns WHERE "
      ++ "table_schema = 'public' AND table_name = $1", [.text "p1_measurements"]⟩
    (.ok [[("column_name", .text "device"), ("data_type", .text "text")]])

/-- Columns were asked for before it was found that the timeframe stands for no window. -/
theorem undated_asksForColumns :
    Gate.request .count "p1" choosyHistorian patient.globalLimit = .ok choosyRequest ∧
      Timeframe.resolve (.ofText? choosyRequest.timeframe) noon = .error tooFarBack ∧
      (run patient .count "p1" choosyHistorian noon).EndsIn [findsProject, findsDevice]
        (.error tooFarBack) ∧
      ¬∀ x ∈ [findsProject, findsDevice], Project.IsLookup patient "p1" x.call := by
  have hgate : Gate.request .count "p1" choosyHistorian patient.globalLimit = .ok choosyRequest := by
    rw [Gate.request_eq, show Gate.filters choosyHistorian.filters = .ok lastOutliers.filters from
      filters_surprised]
    rfl
  refine ⟨hgate, rfl, ?_, fun hall => ?_⟩
  · have henter : (discard (Project.enter patient "p1" ⟨some "r1", none⟩)).EndsIn [findsProject]
        (.ok ()) := .statement .done
    rw [run_eq]
    rw [show [findsProject, findsDevice] = [findsProject] ++ [findsDevice] from rfl]
    refine henter.bind_iff.mpr ?_
    rw [hgate]
    exact .statement .done
  · have hlookup := (hall findsDevice (by simp)).stage
    exact absurd hlookup (by decide)

end Engine
end EventQuery
