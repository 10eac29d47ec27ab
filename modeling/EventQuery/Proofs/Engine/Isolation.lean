import EventQuery.History
import EventQuery.Listing
import EventQuery.Proofs.Engine.Compile
import EventQuery.Proofs.Name.Isolation
import EventQuery.Proofs.Request.Gate
import EventQuery.Proofs.Run.Within
import EventQuery.Proofs.Statement.Source

/-!
# EventQuery.Proofs.Engine.Isolation

Projects are kept apart by their names. Whatever a caller asks for and whatever the backend
answers, the first call looks the project up, and each call after it stays with that project
(`Project.LooksUpFirst`): a query reads the table of its collection and nothing else, a view reads
one key of the cache, and a listing asks for the tables whose names start with the project's.
`isolates_projects` puts these together with the names themselves, none of which two projects
share.
-/

namespace EventQuery

open Run

/-- A key of a project and of no other. -/
def Name.OwnKey (project key : String) : Prop :=
  KeyOf project key ∧ ∀ other, KeyOf other key → other = project

theorem Name.KeyOf.own {project key : String} (h : KeyOf project key) : OwnKey project key :=
  ⟨h, fun _ h' => h.project_unique h'⟩

namespace Call

/-- What a request may send for a collection of a project: a statement that reads the table of the
collection or asks for its columns, or a call of the cache under a key of the project. -/
def StaysWith (project collection : String) : Call → Prop
  | statement st =>
    st.ReadsOnly project collection ∨ st.LooksUp (Name.tableName project collection)
  | get key | set key _ => Name.OwnKey project key

/-- What a listing may send: a statement that asks for the tables of a project. -/
def AsksForTables (project : String) : Call → Prop
  | statement st => st.LooksUp (Statement.tablePattern project)
  | get _ | set _ _ => False

end Call

namespace Project

/-- The call that looks a project up. -/
def IsLookup (s : Settings) (id : String) (c : Call) : Prop :=
  ∃ st, Statement.project (.text s.projectsTable) (.text id) = .ok st ∧ c = .statement st

/-- A run that fails without a call, or looks an accepted project up and does nothing else. -/
def OnlyLooksUp {α : Type} (s : Settings) (id : String) (r : Run α) : Prop :=
  ∀ xs o, r.EndsIn xs o → (xs = [] ∧ ∃ e, o = .error e) ∨
    Name.isFlat id = true ∧ ∃ x, xs = [x] ∧ IsLookup s id x.call

/-- Calls of which the first looks a project up. -/
def LooksUpFirst (s : Settings) (id : String) (later : Call → Prop) (xs : List Exchange) : Prop :=
  (∀ x ∈ xs.head?, IsLookup s id x.call) ∧ ∀ x ∈ xs.tail, later x.call

variable {α β : Type} {s : Settings} {id : String}

theorem onlyLooksUp_fail (e : Failure) : OnlyLooksUp s id (fail e : Run α) := by
  intro xs o h
  obtain ⟨rfl, rfl⟩ := endsIn_done.mp h
  exact .inl ⟨rfl, e, rfl⟩

/-- What follows a lookup without a call of its own belongs to it. -/
theorem OnlyLooksUp.bind {r : Run α} {f : α → Run β} (h : OnlyLooksUp s id r)
    (hf : ∀ a, (f a).Within (fun _ => False) fun _ => True) : OnlyLooksUp s id (r.bind f) := by
  intro xs o hends
  rcases hends.split_any with ⟨e, he, rfl⟩ | ⟨a, ys, zs, rfl, hr, hrest⟩
  · rcases h xs _ he with ⟨rfl, _⟩ | hlookup
    · exact .inl ⟨rfl, e, rfl⟩
    · exact .inr hlookup
  · -- the second part has no call that it could send
    have hnone : zs = [] := (hf a).no_exchanges hrest
    rw [hnone, List.append_nil]
    rcases h ys _ hr with ⟨_, e, he⟩ | hlookup
    · cases he
    · exact .inr hlookup

theorem onlyLooksUp_fetchOne {st : Statement} (hid : Name.isFlat id = true)
    (hst : Statement.project (.text s.projectsTable) (.text id) = .ok st) :
    OnlyLooksUp s id (Client.fetchOne s st) := by
  have hfetch : OnlyLooksUp s id (Client.fetch s st) := by
    intro xs o h
    cases h with
    | @statement _ _ answer ys _ h =>
      have hys : ys = [] := by
        cases answer with
        | ok rows => exact (endsIn_done.mp h).1
        | error o => exact (endsIn_done.mp h).1
      rw [hys]
      exact .inr ⟨hid, .statement st answer, rfl, st, hst, rfl⟩
  exact hfetch.bind fun rows => within_ok trivial

theorem onlyLooksUp_find : OnlyLooksUp s id (find s id) := by
  unfold find
  split
  · rename_i hid
    cases hst : Statement.project (.text s.projectsTable) (.text id) with
    | error e => exact onlyLooksUp_fail e
    | ok st =>
      refine (onlyLooksUp_fetchOne hid hst).bind fun row => ?_
      cases row with
      | none => exact within_fail _
      | some row => exact fun _ _ => trivial
  · exact onlyLooksUp_fail _

theorem onlyLooksUp_enter {c : Credentials} : OnlyLooksUp s id (enter s id c) := by
  unfold enter
  cases requireKey c with
  | error e => exact onlyLooksUp_fail e
  | ok _ =>
    refine onlyLooksUp_find.bind fun p => ?_
    exact within_bind_ofOutcome fun _ _ => within_ok trivial

theorem onlyLooksUp_enterAsMaster {masterKey : Option String} :
    OnlyLooksUp s id (enterAsMaster s id masterKey) := by
  unfold enterAsMaster
  split
  · exact onlyLooksUp_fail _
  · refine onlyLooksUp_find.bind fun p => ?_
    split
    · exact within_ok trivial
    · exact within_fail _

theorem onlyLooksUp_discard_enter {c : Credentials} :
    OnlyLooksUp s id (discard (enter s id c)) :=
  onlyLooksUp_enter.bind fun _ => within_ok trivial

theorem onlyLooksUp_discard_enterAsMaster {masterKey : Option String} :
    OnlyLooksUp s id (discard (enterAsMaster s id masterKey)) :=
  onlyLooksUp_enterAsMaster.bind fun _ => within_ok trivial

/-- What comes after a lookup comes after it for an accepted project only. -/
theorem OnlyLooksUp.looksUpFirst {r : Run α} {f : α → Run β} {later : Call → Prop}
    {xs : List Exchange} {o : Outcome β} (h : OnlyLooksUp s id r)
    (hf : Name.isFlat id = true → ∀ a, (f a).Within later fun _ => True)
    (hends : (r.bind f).EndsIn xs o) : LooksUpFirst s id later xs := by
  rcases hends.split_any with ⟨e, he, rfl⟩ | ⟨a, ys, zs, rfl, hr, hrest⟩
  · rcases h xs _ he with ⟨rfl, _⟩ | ⟨_, x, rfl, hx⟩
    · simp [LooksUpFirst]
    · simpa [LooksUpFirst] using hx
  · rcases h ys _ hr with ⟨_, e, he⟩ | ⟨hid, x, rfl, hx⟩
    · cases he
    · have hlater := ((hf hid a).of_endsIn hrest).1
      exact ⟨by simpa using hx, by simpa using hlater⟩

end Project

/-! ## What comes after the lookup -/

theorem Statistics.get_calls {calls : Call → Prop} {s : Settings}
    {project collection property : String}
    (hget : calls (.get (Name.statsKey project collection property)))
    (hset : ∀ text, calls (.set (Name.statsKey project collection property) text))
    (hstatement : ∀ st, Statement.statistics (.text project) (.text collection) (.text property)
      = .ok st → calls (.statement st)) :
    (Statistics.get s (.text project) (.text collection) (.text property)).Within calls
      fun _ => True := by
  unfold Statistics.get
  refine (Client.read_within hget).bind fun found _ => ?_
  cases found with
  | some fields =>
    dsimp only
    split
    · exact within_ok trivial
    · exact within_fail _
  | none =>
    refine within_bind_ofOutcome fun st hst => ?_
    refine (Client.fetchOne_within (hstatement st hst)).bind fun row _ => ?_
    split
    · exact within_fail _
    · exact (Client.write_within hset).bind fun _ _ => within_ok trivial

namespace Engine

variable {s : Settings} {r : Request} {calls : Call → Prop}

/-- Filters get values of other kinds; the names of a request stay as they are. -/
theorem coerceFilters_calls
    (h : ∀ st, Statement.columnTypes (.text r.project) (.text r.collection) = .ok st →
      calls (.statement st)) :
    (coerceFilters s r).Within calls fun r' => ∃ filters, r' = { r with filters } := by
  have hkinds : (columnKinds s (.text r.project) (.text r.collection)).Within calls
      fun _ => True := by
    refine within_bind_ofOutcome fun st hst => ?_
    refine (Client.fetch_within (h st hst)).bind fun rows _ => ?_
    exact fun _ _ => trivial
  unfold coerceFilters
  split
  · exact within_ok ⟨r.filters, rfl⟩
  · refine hkinds.bind fun kinds _ => ?_
    exact within_bind_ofOutcome fun filters _ => within_ok ⟨filters, rfl⟩

theorem coerceFilters_within :
    (coerceFilters s r).Within (Call.StaysWith r.project r.collection)
      fun r' => ∃ filters, r' = { r with filters } :=
  coerceFilters_calls fun _ hst => .inr (Statement.looksUp_columnTypes hst)

theorem outlierStatistics_calls
    (h : ∀ x ∈ bandProperty r, (Statistics.get s (.text r.project) (.text r.collection)
      (.text x)).Within calls fun _ => True) :
    (outlierStatistics s r).Within calls fun _ => True := by
  unfold outlierStatistics
  cases hband : bandProperty r with
  | none => exact within_ok trivial
  | some x => exact (h x hband).bind fun _ _ => within_ok trivial

theorem outlierStatistics_within (hp : Name.isFlat r.project = true)
    (hc : Name.isFlat r.collection = true)
    (hx : ∀ x ∈ bandProperty r, Name.isProperty x = true) :
    (outlierStatistics s r).Within (Call.StaysWith r.project r.collection) fun _ => True := by
  refine outlierStatistics_calls fun x hband => ?_
  have hkey : Name.OwnKey r.project (Name.statsKey r.project r.collection x) :=
    Name.KeyOf.own ⟨⟨r.project, r.collection, x, hp, hc, hx x hband⟩, rfl, .inl rfl⟩
  exact Statistics.get_calls hkey (fun _ => hkey)
    fun _ hst => .inl (Statement.readsOnly_statistics hst)

theorem compile_within {now : DateTime} (hp : Name.isFlat r.project = true)
    (hc : Name.isFlat r.collection = true)
    (hx : ∀ x ∈ bandProperty r, Name.isProperty x = true) :
    (compile s r now).Within (Call.StaysWith r.project r.collection)
      (Statement.ReadsOnly r.project r.collection) := by
  refine within_bind_ofOutcome fun window _ => ?_
  refine (outlierStatistics_within hp hc hx).bind fun stats _ st hst => ?_
  obtain ⟨ps, hst, hformed, _⟩ := assemble_eq_ok hst
  exact Statement.readsOnly_ofRequest hformed hst

theorem execute_within {now : DateTime} (hp : Name.isFlat r.project = true)
    (hc : Name.isFlat r.collection = true)
    (hx : ∀ x ∈ bandProperty r, Name.isProperty x = true) :
    (execute s r now).Within (Call.StaysWith r.project r.collection) fun _ => True := by
  refine coerceFilters_within.bind ?_
  rintro _ ⟨filters, rfl⟩
  refine (compile_within (r := { r with filters }) hp hc hx).bind fun st hst => ?_
  refine (Client.fetch_within (.inl hst)).bind fun rows _ => ?_
  split
  · exact within_bind_ofOutcome fun kept _ _ _ => trivial
  · exact fun _ _ => trivial

theorem isProperty_bandProperty (h : r.Accepted) :
    ∀ x ∈ bandProperty r, Name.isProperty x = true := by
  intro x hx
  unfold bandProperty at hx
  split at hx
  · cases hx
  · rename_i hmode
    obtain ⟨y, hy, hproperty⟩ := h.outliersIn hmode
    rw [hy, present, Option.filter] at hx
    split at hx
    · cases hx
      exact hproperty
    · cases hx

/-- A query is the entry of its caller, the gate and the execution of the request. -/
theorem run_eq {a : Archetype} {project : String} {p : Params} {now : DateTime} :
    run s a project p now = (discard (Project.enter s project ⟨p.readKey, p.masterKey⟩)).bind
      fun _ => (ofOutcome (Gate.request a project p s.globalLimit)).bind
        fun r => execute s r now := Run.bind_assoc _ _ _

/-- The calls of a query, the first apart, stay with the project and the collection asked for. -/
theorem run_looksUpFirst {a : Archetype} {project : String} {p : Params} {now : DateTime}
    {xs : List Exchange} {o : Outcome Value} (h : (run s a project p now).EndsIn xs o) :
    Project.LooksUpFirst s project
      (fun c => ∃ collection ∈ p.eventCollection, c.StaysWith project collection) xs := by
  rw [run_eq] at h
  refine Project.onlyLooksUp_discard_enter.looksUpFirst (fun hp _ => ?_) h
  refine within_bind_ofOutcome fun r hr => ?_
  have haccepted := Gate.accepted_of_request hr
  obtain ⟨_, rfl, hcollection, _⟩ := Gate.request_eq_ok hr
  have hrequested := Name.mem_of_flat_ofText? hcollection
  refine (execute_within hp haccepted.collection (isProperty_bandProperty haccepted)).mono ?_
  exact fun c hc => ⟨r.collection, hrequested, hc⟩

end Engine

namespace History

/-- A view reads one key of the cache, which is one of the project's. -/
theorem view_looksUpFirst {s : Settings} {project : String} {p : Params} {today : Date}
    {xs : List Exchange} {o : Outcome Rollup.View} (h : (view s project p today).EndsIn xs o) :
    Project.LooksUpFirst s project
      (fun c => ∃ collection ∈ p.eventCollection, c.StaysWith project collection) xs := by
  refine Project.onlyLooksUp_discard_enter.looksUpFirst (fun hp _ => ?_) h
  refine within_bind_ofOutcome fun collection hcollection => ?_
  have hrequested := Name.mem_of_flat_ofText? hcollection
  obtain ⟨_, hc⟩ := Name.flat_eq_ok hcollection
  cases present p.targetProperty with
  | none => exact within_fail _
  | some target =>
    refine within_bind_ofOutcome fun property hproperty => ?_
    obtain ⟨_, hx⟩ := Name.property_eq_ok hproperty
    have hkey : Name.OwnKey project (Name.rollupKey project collection property) :=
      Name.KeyOf.own ⟨⟨project, collection, property, hp, hc, hx⟩, rfl, .inr rfl⟩
    refine within_bind_ofOutcome fun type _ => ?_
    dsimp only
    split
    · intro a ha
      cases ha
    · refine within_bind_ofOutcome fun reference _ => ?_
      refine (Client.read_within ⟨collection, hrequested, hkey⟩).bind fun rollup _ => ?_
      exact fun _ _ => trivial

end History

namespace Listing

/-- A listing asks for the tables of the project. -/
theorem list_looksUpFirst {s : Settings} {project : String} {masterKey : Option String}
    {xs : List Exchange} {o : Outcome (List (String × List ColumnInfo))}
    (h : (list s project masterKey).EndsIn xs o) :
    Project.LooksUpFirst s project (Call.AsksForTables project) xs := by
  refine Project.onlyLooksUp_discard_enterAsMaster.looksUpFirst (fun _ _ => ?_) h
  refine within_bind_ofOutcome fun st hst => ?_
  refine (Client.fetch_within (Statement.looksUp_collections hst)).bind fun rows _ => ?_
  exact fun _ _ => trivial

end Listing

/-! ## All of it -/

/-- Projects have no table and no key in common, no table of events has the name of the table of
projects, and what is sent for a project after its lookup is about this project. -/
theorem isolates_projects (s : Settings) (project : String) :
    (∀ p c p' c' q, Name.quotedTable p c = .ok q → Name.quotedTable p' c' = .ok q →
      p = p' ∧ c = c') ∧
    Function.Injective Name.Place.statsKey ∧ Function.Injective Name.Place.rollupKey ∧
    (∀ x y : Name.Place, x.statsKey ≠ y.rollupKey) ∧
    (∀ t p c, Name.flat "projects table" (.text s.projectsTable) = .ok t →
      t ≠ Name.tableName p c) ∧
    (∀ a p now xs o, (Engine.run s a project p now).EndsIn xs o →
      Project.LooksUpFirst s project
        (fun c => ∃ collection ∈ p.eventCollection, c.StaysWith project collection) xs) ∧
    (∀ p today xs o, (History.view s project p today).EndsIn xs o →
      Project.LooksUpFirst s project
        (fun c => ∃ collection ∈ p.eventCollection, c.StaysWith project collection) xs) ∧
    ∀ masterKey xs o, (Listing.list s project masterKey).EndsIn xs o →
      Project.LooksUpFirst s project (Call.AsksForTables project) xs := by
  refine ⟨?tables, Name.Place.statsKey_injective, Name.Place.rollupKey_injective,
    Name.Place.statsKey_ne_rollupKey, ?projects, ?query, ?view, ?list⟩
  case tables => exact fun _ _ _ _ _ h h' => Name.quotedTable_inj h h'
  case projects => exact fun t p c ht => Name.flat_ne_tableName (Name.flat_eq_ok ht).2
  case query => exact fun _ _ _ _ _ h => Engine.run_looksUpFirst h
  case view => exact fun _ _ _ _ h => History.view_looksUpFirst h
  case list => exact fun _ _ _ h => Listing.list_looksUpFirst h

namespace Engine

/-- A caller who counts the measurements with a typical voltage. -/
def visitor : Params where
  readKey := some "r1"
  eventCollection := some "measurements"
  outliers := some "exclude"
  outliersIn := some "voltage"

def findsProject : Exchange :=
  .statement ⟨"SELECT project_id, read_key, write_key, master_key, organization FROM \"projects\""
      ++ " WHERE project_id = $1 LIMIT 1", [.text "p1"]⟩
    (.ok [[("project_id", .text "p1"), ("read_key", .text "r1"), ("master_key", .text "m1")]])

theorem run_visitor :
    ∃ st, (run patient .count "p1" visitor noon).EndsIn
      (findsProject :: computesZeros ++ [.statement st (.ok [[("count", .int 7)]])])
      (.ok (Shape.rowValues [[("count", .int 7)]])) :=
  ⟨_, .statement (.get (.statement (.set (.statement .done))))⟩

theorem isolates_projects_visitor :
    ∃ st, (run patient .count "p1" visitor noon).EndsIn
        (findsProject :: computesZeros ++ [.statement st (.ok [[("count", .int 7)]])])
        (.ok (Shape.rowValues [[("count", .int 7)]])) ∧
      ∀ x ∈ computesZeros ++ [.statement st (.ok [[("count", .int 7)]])],
        x.call.StaysWith "p1" "measurements" := by
  obtain ⟨st, h⟩ := run_visitor
  obtain ⟨_, _, _, _, _, hquery, _⟩ := isolates_projects patient "p1"
  refine ⟨st, h, fun x hx => ?_⟩
  obtain ⟨_, hcollection, hstays⟩ := (hquery _ _ _ _ _ h).2 x hx
  cases hcollection
  exact hstays

end Engine
end EventQuery
