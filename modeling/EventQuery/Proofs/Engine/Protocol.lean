import EventQuery.Proofs.Engine.Isolation
import EventQuery.Proofs.Run.Protocol

/-!
# EventQuery.Proofs.Engine.Protocol

Which calls a query, a view and a listing make, and in which order. All three look the project up
first. A query with filters then asks for the columns of its collection; one with an outlier mode
reads statistics from the cache, and where there are none has them computed and stores them; its
own statement comes last (`Engine.protocol`). A view reads one rollup and a listing asks for the
tables of its project, and neither of them stores anything.

What is left of the protocol after each part of a run is found part by part (`Engine.keeps_run`,
`History.keeps_view`, `Listing.keeps_list`), and each call comes at a later stage than those before
it (`Engine.ascends_protocol` and the like).
-/

namespace EventQuery

open Run

/-! ## Protocols -/

/-- The call that sends the statement a builder makes. -/
def Call.Sends (built : Outcome Statement) (c : Call) : Prop :=
  ∃ st, c = .statement st ∧ built = .ok st

/-- The statistics of a property: out of the cache, or computed and stored. -/
def Statistics.protocol (project collection property : String) (rest : Protocol) : Protocol :=
  .call (· = .get (Name.statsKey project collection property)) fun
    | .get _ (.ok none) =>
      .call (Call.Sends (Statement.statistics (.text project) (.text collection) (.text property)))
        fun _ => .call (fun c => ∃ text, c = .set (Name.statsKey project collection property) text)
          fun _ => rest
    | _ => rest

namespace Engine

/-- The columns of a collection, for a request with filters. -/
def filterProtocol (r : Request) (rest : Protocol) : Protocol :=
  if r.filters.isEmpty then rest
  else
    .call (Call.Sends (Statement.columnTypes (.text r.project) (.text r.collection))) fun _ => rest

/-- Statistics, for a request with an outlier mode. -/
def outlierProtocol (r : Request) (rest : Protocol) : Protocol :=
  if r.outliers = .include then rest
  else Statistics.protocol r.project r.collection (r.outliersIn.getD "") rest

/-- The statement of a request, whatever kinds its filters were read in. -/
def IsStatementOf (s : Settings) (r : Request) (c : Call) : Prop :=
  ∃ filters window stats st, c = .statement st ∧
    assemble s { r with filters } window stats = .ok st

def protocol (s : Settings) (a : Archetype) (project : String) (p : Params) : Protocol :=
  .call (Project.IsLookup s project) fun _ =>
    match Gate.request a project p s.globalLimit with
    | .error _ => .finished
    | .ok r => filterProtocol r (outlierProtocol r (.call (IsStatementOf s r) fun _ => .finished))

end Engine

def History.protocol (s : Settings) (project : String) (p : Params) : Protocol :=
  .call (Project.IsLookup s project) fun _ =>
    .call (fun c => ∃ collection ∈ p.eventCollection, ∃ property ∈ p.targetProperty,
      c = .get (Name.rollupKey project collection property)) fun _ => .finished

def Listing.protocol (s : Settings) (project : String) : Protocol :=
  .call (Project.IsLookup s project) fun _ =>
    .call (Call.Sends (Statement.collections (.text project))) fun _ => .finished

/-! ## Stages -/

/-- The place of a call in its run. The last value that a statement binds tells statements apart:
the project itself, the name or pattern of a table, nothing, or the row cap. -/
def Call.stage (project : String) : Call → Nat
  | statement st =>
    match st.params.getLast? with
    | some (.text bound) => if bound = project then 0 else 1
    | none => 3
    | some _ => 5
  | get _ => 2
  | set _ _ => 4

section Stages

variable {s : Settings} {project collection property : String} {st : Statement}

theorem Project.IsLookup.stage {c : Call} (h : IsLookup s project c) : c.stage project = 0 := by
  obtain ⟨st, hst, rfl⟩ := h
  unfold Statement.project at hst
  split at hst
  · cases hst
  · cases hst
    simp [Call.stage]

theorem stage_columnTypes
    (h : Statement.columnTypes (.text project) (.text collection) = .ok st) :
    (Call.statement st).stage project = 1 := by
  unfold Statement.columnTypes at h
  split at h
  · cases h
  · rename_i p hp
    obtain ⟨hp, hflat⟩ := Name.flat_eq_ok hp
    cases hp
    split at h
    · cases h
    · cases h
      simp [Call.stage, (Name.flat_ne_tableName hflat).symm]

theorem stage_collections (h : Statement.collections (.text project) = .ok st) :
    (Call.statement st).stage project = 1 := by
  unfold Statement.collections at h
  split at h
  · cases h
  · rename_i p hp
    obtain ⟨hp, hflat⟩ := Name.flat_eq_ok hp
    cases hp
    cases h
    have hne : Statement.tablePattern project ≠ project := by
      intro heq
      rw [← heq] at hflat
      exact Name.underscore_not_mem_flat hflat (by simp [Statement.tablePattern])
    simp [Call.stage, hne]

theorem stage_statistics
    (h : Statement.statistics (.text project) (.text collection) (.text property) = .ok st) :
    (Call.statement st).stage project = 3 := by
  unfold Statement.statistics at h
  split at h
  · cases h
  · split at h
    · cases h
    · cases h
      rfl

theorem Engine.IsStatementOf.stage {r : Request} {c : Call} (h : IsStatementOf s r c) :
    c.stage project = 5 := by
  obtain ⟨filters, window, stats, st, rfl, hst⟩ := h
  obtain ⟨ps, hofRequest, _⟩ := assemble_eq_ok hst
  have hlast : st.params.getLast? = some (.int r.latest) := by
    rw [Statement.params_ofRequest hofRequest]
    simp
  simp [Call.stage, hlast]

theorem Statistics.ascends_protocol {rest : Protocol}
    (hrest : rest.Ascends (Call.stage project) 5) :
    (Statistics.protocol project collection property rest).Ascends (Call.stage project) 2 := by
  intro x hx
  have hread : x.call.stage project = 2 := by rw [hx]; rfl
  refine ⟨hread.ge, ?_⟩
  rw [hread]
  dsimp only
  split
  · intro y hy
    obtain ⟨st, hy, hst⟩ := hy
    have hcompute : y.call.stage project = 3 := by rw [hy]; exact stage_statistics hst
    refine ⟨hcompute.ge, ?_⟩
    rw [hcompute]
    intro z hz
    obtain ⟨text, hz⟩ := hz
    have hstore : z.call.stage project = 4 := by rw [hz]; rfl
    refine ⟨hstore.ge, ?_⟩
    rw [hstore]
    exact hrest
  · exact hrest.mono (by omega)

theorem Engine.ascends_protocol (a : Archetype) (p : Params) :
    (Engine.protocol s a project p).Ascends (Call.stage project) 0 := by
  intro x hx
  refine ⟨Nat.zero_le _, ?_⟩
  rw [hx.stage]
  cases hgate : Gate.request a project p s.globalLimit with
  | error e => trivial
  | ok r =>
    obtain ⟨_, rfl, _⟩ := Gate.request_eq_ok hgate
    have hanswer : (Protocol.call (IsStatementOf s r) fun _ => .finished).Ascends
        (Call.stage r.project) 5 := fun y hy => ⟨hy.stage.ge, trivial⟩
    have houtliers : (outlierProtocol r (.call (IsStatementOf s r) fun _ => .finished)).Ascends
        (Call.stage r.project) 2 := by
      unfold outlierProtocol
      split
      · exact hanswer.mono (by omega)
      · exact Statistics.ascends_protocol hanswer
    dsimp only
    unfold filterProtocol
    split
    · exact houtliers.mono (by omega)
    · intro y hy
      obtain ⟨st, hy, hst⟩ := hy
      have hcolumns : y.call.stage r.project = 1 := by rw [hy]; exact stage_columnTypes hst
      refine ⟨hcolumns.ge, ?_⟩
      rw [hcolumns]
      exact houtliers

theorem History.ascends_protocol (p : History.Params) :
    (History.protocol s project p).Ascends (Call.stage project) 0 := by
  intro x hx
  refine ⟨Nat.zero_le _, ?_⟩
  rw [hx.stage]
  intro y hy
  obtain ⟨_, _, _, _, hy⟩ := hy
  rw [hy]
  exact ⟨show 1 ≤ 2 by omega, trivial⟩

theorem Listing.ascends_protocol :
    (Listing.protocol s project).Ascends (Call.stage project) 0 := by
  intro x hx
  refine ⟨Nat.zero_le _, ?_⟩
  rw [hx.stage]
  intro y hy
  obtain ⟨st, hy, hst⟩ := hy
  rw [hy, stage_collections hst]
  exact ⟨Nat.le_refl 1, trivial⟩

end Stages

/-! ## Runs -/

section Runs

variable {s : Settings} {project collection property : String} {rest : Protocol}

/-- What is left of a protocol is what was to come. -/
def Leaves {α : Type} (rest : Protocol) (_ : α) (q : Protocol) : Prop := q = rest

theorem Project.keeps_find :
    Keeps (Leaves rest) (find s project) (.call (IsLookup s project) fun _ => rest) := by
  unfold find
  split
  · refine keeps_ofOutcome_bind fun st hst => ?_
    refine (Client.fetchOne_keeps ⟨st, hst, rfl⟩).bind fun row q hq => ?_
    obtain ⟨_, rfl⟩ := hq
    split
    · exact .error
    · exact keeps_ofOutcome fun _ _ => rfl
  · exact .error

theorem Project.keeps_enter {c : Credentials} :
    Keeps (Leaves rest) (discard (enter s project c))
      (.call (IsLookup s project) fun _ => rest) := by
  have henter : Keeps (Leaves rest) (enter s project c)
      (.call (IsLookup s project) fun _ => rest) := by
    refine keeps_ofOutcome_bind fun _ _ => keeps_find.bind fun p q hq => ?_
    exact keeps_ofOutcome_bind fun _ _ => .ok hq
  exact henter.bind fun _ _ hq => .ok hq

theorem Project.keeps_enterAsMaster {masterKey : Option String} :
    Keeps (Leaves rest) (discard (enterAsMaster s project masterKey))
      (.call (IsLookup s project) fun _ => rest) := by
  have henter : Keeps (Leaves rest) (enterAsMaster s project masterKey)
      (.call (IsLookup s project) fun _ => rest) := by
    unfold enterAsMaster
    split
    · exact .error
    · refine keeps_find.bind fun p q hq => ?_
      split
      · exact .ok hq
      · exact .error
  exact henter.bind fun _ _ hq => .ok hq

theorem Statistics.keeps_get :
    Run.Keeps (Leaves rest) (Statistics.get s (.text project) (.text collection) (.text property))
      (Statistics.protocol project collection property rest) := by
  unfold Statistics.get Statistics.protocol
  refine (@Client.read_keeps s (· = .get (Name.statsKey project collection property)) _ _
    rfl).bind fun found q hq => ?_
  obtain ⟨raw, rfl, hnone⟩ := hq
  cases found with
  | some fields =>
    cases raw with
    | none => cases hnone.mpr rfl
    | some raw =>
      dsimp only
      split
      · exact .ok rfl
      · exact .error
  | none =>
    obtain rfl := hnone.mp rfl
    refine keeps_ofOutcome_bind fun st hst => ?_
    refine (Client.fetchOne_keeps ⟨st, rfl, hst⟩).bind fun row q hq => ?_
    obtain ⟨_, rfl⟩ := hq
    split
    · exact .error
    · refine (Client.write_keeps fun text => ⟨text, rfl⟩).bind fun _ q hq => ?_
      obtain ⟨_, rfl⟩ := hq
      exact .ok rfl

namespace Engine

variable {r : Request}

/-- The filters alone may change. -/
theorem keeps_coerceFilters :
    Keeps (fun r' q => (∃ filters, r' = { r with filters }) ∧ q = rest) (coerceFilters s r)
      (filterProtocol r rest) := by
  unfold coerceFilters filterProtocol
  split
  · exact .ok ⟨⟨r.filters, rfl⟩, rfl⟩
  · have hkinds : Keeps (Leaves rest) (columnKinds s (.text r.project) (.text r.collection))
        (.call (Call.Sends (Statement.columnTypes (.text r.project) (.text r.collection)))
          fun _ => rest) := by
      refine keeps_ofOutcome_bind fun st hst => ?_
      refine (Client.fetch_keeps ⟨st, rfl, hst⟩).bind fun rows q hq => ?_
      obtain ⟨_, rfl⟩ := hq
      exact keeps_ofOutcome fun _ _ => rfl
    refine hkinds.bind fun kinds q hq => ?_
    exact keeps_ofOutcome_bind fun filters _ => .ok ⟨⟨filters, rfl⟩, hq⟩

theorem keeps_outlierStatistics
    (h : r.outliers ≠ .include → ∃ x, r.outliersIn = some x ∧ Name.isProperty x = true) :
    Keeps (Leaves rest) (outlierStatistics s r) (outlierProtocol r rest) := by
  unfold outlierStatistics outlierProtocol
  by_cases hmode : r.outliers = .include
  · rw [if_pos hmode, bandProperty, if_pos hmode]
    exact .ok rfl
  · obtain ⟨x, hx, hproperty⟩ := h hmode
    rw [if_neg hmode, bandProperty, if_neg hmode, hx, present_of_isProperty hproperty]
    exact Statistics.keeps_get.bind fun _ _ hq => .ok hq

theorem keeps_execute {now : DateTime} (h : r.Accepted) :
    Keeps (Leaves .finished) (execute s r now)
      (filterProtocol r (outlierProtocol r (.call (IsStatementOf s r) fun _ => .finished))) := by
  refine keeps_coerceFilters.bind fun r' q hq => ?_
  obtain ⟨⟨filters, rfl⟩, rfl⟩ := hq
  have hcompile : Keeps (fun st q => IsStatementOf s r (.statement st) ∧
      q = .call (IsStatementOf s r) fun _ => .finished) (compile s { r with filters } now)
      (outlierProtocol r (.call (IsStatementOf s r) fun _ => .finished)) := by
    refine keeps_ofOutcome_bind fun window _ => ?_
    refine (keeps_outlierStatistics (r := { r with filters }) h.outliersIn).bind
      fun stats q hq => ?_
    obtain rfl := hq
    exact keeps_ofOutcome fun st hst => ⟨⟨filters, window, stats, st, rfl, hst⟩, rfl⟩
  refine hcompile.bind fun st q hq => ?_
  obtain ⟨hst, rfl⟩ := hq
  refine (Client.fetch_keeps hst).bind fun rows q hq => ?_
  obtain ⟨_, rfl⟩ := hq
  split
  · exact keeps_ofOutcome_bind fun kept _ => keeps_ofOutcome fun _ _ => rfl
  · exact keeps_ofOutcome fun _ _ => rfl

theorem keeps_run {a : Archetype} {p : Params} {now : DateTime} :
    Keeps (Leaves .finished) (run s a project p now) (protocol s a project p) := by
  rw [run_eq]
  refine Project.keeps_enter.bind fun _ q hq => ?_
  rw [hq]
  refine keeps_ofOutcome_bind fun r hr => ?_
  rw [hr]
  exact keeps_execute (Gate.accepted_of_request hr)

end Engine

theorem History.keeps_view {p : Params} {today : Date} :
    Keeps (Leaves .finished) (view s project p today) (History.protocol s project p) := by
  refine Project.keeps_enter.bind fun _ q hq => ?_
  rw [hq]
  refine keeps_ofOutcome_bind fun collection hcollection => ?_
  have hcollection := Name.mem_of_flat_ofText? hcollection
  cases htarget : present p.targetProperty with
  | none => exact .error
  | some target =>
    refine keeps_ofOutcome_bind fun property hproperty => ?_
    obtain ⟨hvalue, _⟩ := Name.property_eq_ok hproperty
    cases hvalue
    have htarget : target ∈ p.targetProperty := (Option.filter_eq_some_iff.mp htarget).1
    refine keeps_ofOutcome_bind fun type _ => ?_
    dsimp only
    split
    · exact .error
    · refine keeps_ofOutcome_bind fun reference _ => ?_
      refine (Client.read_keeps ⟨collection, hcollection, target, htarget, rfl⟩).bind
        fun rollup q hq => ?_
      obtain ⟨_, rfl, _⟩ := hq
      exact keeps_ofOutcome fun _ _ => rfl

theorem Listing.keeps_list {masterKey : Option String} :
    Keeps (Leaves .finished) (list s project masterKey) (Listing.protocol s project) := by
  refine Project.keeps_enterAsMaster.bind fun _ q hq => ?_
  rw [hq]
  refine keeps_ofOutcome_bind fun st hst => ?_
  refine (Client.fetch_keeps ⟨st, rfl, hst⟩).bind fun rows q hq => ?_
  obtain ⟨_, rfl⟩ := hq
  exact keeps_ofOutcome fun _ _ => rfl

end Runs
end EventQuery
