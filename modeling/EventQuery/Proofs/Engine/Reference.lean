import EventQuery.Proofs.Engine.Independence
import EventQuery.Proofs.Engine.Isolation
import EventQuery.Proofs.Engine.Retrieval
import EventQuery.Proofs.Store.Answers

/-!
# EventQuery.Proofs.Engine.Reference

Requests that fetch rows, end to end. Against a store that holds a table, such a request comes to
the shape of the newest rows that it wants (`execute_eq_reference`): the clause is true of exactly
those rows (`selected_iff_wants`), the store cuts off the oldest of them, and the filters that are
applied to what comes back drop none (`selectAll_part`).
-/

namespace EventQuery

theorem Request.Accepted.coerced {kinds : List (String × ColumnKind)} {r : Request}
    {filters : List Filter} (h : r.Accepted)
    (hcoerce : Filter.coerceAll kinds r.filters = .ok filters) :
    ({ r with filters } : Request).Accepted :=
  ⟨h.collection, h.target, h.targets, h.groupBy, h.outliersIn,
    Filter.forall_property_of_coerceAll (Name.isProperty · = true) hcoerce h.filters⟩

namespace Engine

variable {s : Settings} {r : Request} {now : DateTime} {window : Option Window}
  {stats : Option (String × Statistics)} {st : Statement} {w : World}

/-! ## Statements of accepted requests -/

theorem band_of_accepted (h : r.Accepted) (hstats : stats.map (·.1) = bandProperty r) :
    ∃ p, band s r stats = .ok p := by
  cases stats with
  | none => exact ⟨none, rfl⟩
  | some found =>
    obtain ⟨property, found⟩ := found
    have hproperty := isProperty_bandProperty h property hstats.symm
    show ∃ p, found.predicate (.text property) r.outliers s.outlierWidth = .ok p
    unfold Statistics.predicate
    split
    · exact ⟨_, rfl⟩
    · rw [Name.property_of_isProperty "column" hproperty]
      exact ⟨_, rfl⟩

/-- A request with something to select has a statement, for any window and any statistics. -/
theorem assemble_of_selection {x : Statement.Selection} (hselection : Statement.selection r = .ok x)
    (h : r.Accepted) (hproject : Name.isFlat r.project = true)
    (hstats : stats.map (·.1) = bandProperty r) (window : Option Window) :
    ∃ st, assemble s r window stats = .ok st := by
  obtain ⟨b, hb⟩ := band_of_accepted (s := s) h hstats
  obtain ⟨f, hf⟩ := Filter.predicate_of_isProperty h.filters
  unfold assemble
  rw [hb, hf]
  dsimp only
  rw [Statement.ofRequest, Statement.ofTexts,
    Name.quotedTable_of_isFlat hproject h.collection, hselection]
  exact ⟨_, rfl⟩

theorem assemble_of_accepted (hraw : r.FetchesRows) (h : r.Accepted)
    (hproject : Name.isFlat r.project = true) (hstats : stats.map (·.1) = bandProperty r)
    (window : Option Window) : ∃ st, assemble s r window stats = .ok st := by
  obtain ⟨text, columns, hselection, _⟩ := Statement.selection_of_fetchesRows hraw h
  exact assemble_of_selection hselection h hproject hstats window

theorem compile_against (hwindow : Timeframe.resolve (.ofText? r.timeframe) now = .ok window)
    (hstats : (outlierStatistics s r).against w = .ok stats)
    (hst : assemble s r window stats = .ok st) : (compile s r now).against w = .ok st :=
  ((Run.against_ofOutcome_bind hwindow).trans (Run.against_bind_ok hstats)).trans hst

/-! ## The clause of the statement -/

variable {t : Table} {arrangement : Arrangement} {row : Record} {raw : List Filter}

theorem params_assemble (h : assemble s r window stats = .ok st) :
    st.params = boundValues s r window stats ++ [.int r.latest] := by
  obtain ⟨ps, hst, _, hvalues, _⟩ := assemble_eq_ok h
  rw [Statement.params_ofRequest hst, hvalues]

theorem onUtc_ends (stats : Statistics) (mode : OutlierMode) (width : Binary64) :
    (stats.ends mode width).map Value.onUtc = stats.ends mode width := by
  obtain ⟨mean, stddev⟩ := stats
  cases mode <;> cases mean <;> rfl

/-- Of the bound values only those of the window can be on another clock than that of UTC. -/
theorem onUtc_boundValues (hcoerce : Filter.coerceAll t.kinds raw = .ok r.filters)
    (hcolumns : ∀ f ∈ r.filters, f.property ∈ t.columns.map Column.name) :
    (boundValues s r window stats).map Value.onUtc
      = boundValues s r (window.map Window.onUtc) stats := by
  have hwindow : (window.toList.flatMap fun w => [Value.datetime w.start, .datetime w.stop]).map
      Value.onUtc = (window.map Window.onUtc).toList.flatMap fun w =>
        [Value.datetime w.start, .datetime w.stop] := by
    cases window <;> rfl
  have hends : (stats.toList.flatMap fun found => found.2.ends r.outliers s.outlierWidth).map
      Value.onUtc = stats.toList.flatMap fun found => found.2.ends r.outliers s.outlierWidth := by
    cases stats with
    | none => rfl
    | some found => simpa using onUtc_ends found.2 r.outliers s.outlierWidth
  have hfilters : (r.filters.map (·.value)).map Value.onUtc = r.filters.map (·.value) := by
    rw [List.map_map]
    refine List.map_congr_left fun f hf => ?_
    obtain ⟨k, hkind, hk⟩ := Table.exists_kind (hcolumns f hf)
    obtain ⟨_, hgiven⟩ := Filter.coerceValue_of_coerceAll hcoerce hf hkind
    exact Filter.onUtc_of_coerceValue hk hgiven
  rw [boundValues, List.map_append, List.map_append, hwindow, hends, hfilters, boundValues]

/-- The clause of a statement is true of exactly the rows that the request wants. -/
theorem selected_iff_wants (hraw : r.FetchesRows) (haccepted : r.Accepted)
    (hproject : Name.isFlat r.project = true) (hstats : stats.map (·.1) = bandProperty r)
    (hcoerce : Filter.coerceAll t.kinds raw = .ok r.filters)
    (hcolumns : ∀ f ∈ r.filters, f.property ∈ t.columns.map Column.name)
    (hnumber : ∀ x ∈ bandProperty r, Filter.kindFor t.kinds x = some .number)
    (hst : assemble s r window stats = .ok st) {clause : Option Condition}
    (hclause : Statement.where? st.sql = some clause) (hrow : row ∈ t.rows) :
    Statement.Selected row.onUtc (st.params.map Value.onUtc) clause ↔
      wants s r.outliers t.kinds window stats r.filters row = true := by
  -- the same request with its window on a UTC clock has the same text, and values on this clock
  obtain ⟨st', hst'⟩ := assemble_of_accepted (s := s) hraw haccepted hproject hstats
    (window.map Window.onUtc)
  have hsql : st.sql = st'.sql :=
    sql_assemble_eq (Request.SameShape.refl r) (by cases window <;> rfl) rfl rfl hst hst'
  have hparams : st.params.map Value.onUtc = st'.params := by
    rw [params_assemble hst, params_assemble hst', List.map_append,
      onUtc_boundValues hcoerce hcolumns]
    rfl
  obtain ⟨ps, hbuilt, hformed, _, _, hholds⟩ := assemble_eq_ok hst'
  obtain ⟨clause', hclause', _, hselected⟩ := Statement.where_ofRequest hformed hbuilt
  rw [← hsql, hclause] at hclause'
  cases hclause'
  have hnumber' : ∀ found ∈ stats, Filter.kindFor t.kinds found.1 = some .number := by
    intro found hfound
    refine hnumber found.1 ?_
    rw [← hstats]
    exact Option.mem_map_of_mem _ hfound
  rw [hparams, hselected, hholds, Table.holds_window hrow, Table.holds_band hrow hnumber',
    Table.holds_filters hrow hcoerce hcolumns, wants]
  simp [and_assoc]

/-! ## Rows that came back -/

/-- Filters applied to parts of rows that meet them keep every part. -/
theorem selectAll_part {filters : List Filter} {rows : List Record} (names : Option (List String))
    (hcolumns : ∀ f ∈ filters, f.property ∈ t.columns.map Column.name)
    (hrows : ∀ row ∈ rows, row ∈ t.rows ∧ filters.all (·.meets t.kinds row) = true) :
    Filter.selectAll filters (rows.map (Record.part names))
      = .ok (rows.map (Record.part names)) := by
  rw [Filter.selectAll_eq_self_iff, List.forall_mem_map]
  intro row hrow f hf
  obtain ⟨hmem, hall⟩ := hrows row hrow
  have hmeets := List.all_eq_true.mp hall f hf
  obtain ⟨u, hu⟩ := Table.find?_of_mem_columns hmem (hcolumns f hf)
  obtain ⟨k, hkind, _⟩ := Table.kind_of_find? hmem hu
  rw [Filter.meets, hu, hkind] at hmeets
  obtain ⟨a, b, ha, hb⟩ := ColumnKind.exists_key_of_compares hmeets
  rw [Filter.accepts_eq_true_iff]
  intro v hv
  rw [Record.eq_value_of_find?_part hv, Table.value_eq hu, Filter.compares_of_key ha hb]
  exact congrArg Except.ok hmeets

/-- The rows that the store returns for the statement of a request. -/
theorem fetch_assemble (hserves : w.Serves t arrangement) (hraw : r.FetchesRows)
    (haccepted : r.Accepted) (hproject : r.project = t.project)
    (hcollection : r.collection = t.collection) (hstats : stats.map (·.1) = bandProperty r)
    (hcoerce : Filter.coerceAll t.kinds raw = .ok r.filters)
    (hcolumns : ∀ f ∈ r.filters, f.property ∈ t.columns.map Column.name)
    (hnumber : ∀ x ∈ bandProperty r, Filter.kindFor t.kinds x = some .number)
    (hst : assemble s r window stats = .ok st) :
    (Client.fetch s st).against w
      = .ok ((t.newest arrangement r.latest
          (wants s r.outliers t.kinds window stats r.filters)).map (Record.part r.columns)) := by
  obtain ⟨ps, hbuilt, hformed, _⟩ := assemble_eq_ok hst
  obtain ⟨clause, hclause, hread⟩ := Statement.raw?_ofRequest hraw haccepted hformed hbuilt
  have htable : Name.tableName r.project r.collection = t.name := by
    rw [hproject, hcollection, Table.name]
  have hflat : Name.isFlat r.project = true := hproject ▸ t.isFlat_project
  -- the store tests the clause, the request is about what it wants
  have hselects : ∀ row ∈ t.rows,
      decide (Statement.Selected row.onUtc (st.params.map Value.onUtc) clause)
        = wants s r.outliers t.kinds window stats r.filters row := by
    intro row hrow
    rw [Bool.eq_iff_iff, decide_eq_true_iff]
    exact selected_iff_wants hraw haccepted hflat hstats hcoerce hcolumns hnumber hst hclause hrow
  rw [Client.fetch_against (hserves.raw st _ hread htable), Table.fetch,
    Table.newest_congr hselects, List.map_map]
  refine congrArg Except.ok (List.map_congr_left fun row hrow => ?_)
  exact Table.decodeRecord_part (Table.mem_newest hrow).1 r.columns

/-! ## One request -/

/-- Some minutes after eleven. -/
def minuteOf (minute : Int) : DateTime :=
  .utc (11 * Calendar.microsPerHour + minute * Calendar.microsPerMinute)

/-- What a device read there. -/
def reading (minute : Int) (device : String) (voltage : Value) : Record :=
  [(Name.timestampColumn, .datetime (minuteOf minute)), ("device", .text device),
    ("voltage", voltage)]

def readingColumns : List Column :=
  [⟨Name.timestampColumn, "timestamp with time zone"⟩, ⟨"device", "text"⟩, ⟨"voltage", "bigint"⟩]

theorem holds_reading {minute : Int} {device : String} {voltage : Value}
    (htime : ColumnKind.timestamp.Has (.datetime (minuteOf minute)))
    (hvoltage : voltage = .null ∨ ColumnKind.number.Has voltage) :
    List.Forall₂ Column.Holds readingColumns (reading minute device voltage) :=
  .cons ⟨rfl, .inr htime⟩ (.cons ⟨rfl, .inr ⟨_, rfl⟩⟩ (.cons ⟨rfl, hvoltage⟩ .nil))

/-- Six readings: one before eleven, and one without a voltage. -/
def readings : Table where
  project := "p1"
  collection := "measurements"
  columns := readingColumns
  rows := [reading (-10) "d6" (.int 90), reading 10 "d1" (.int 40), reading 20 "d2" (.int 5),
    reading 30 "d3" (.int 12), reading 40 "d4" .null, reading 50 "d5" (.int 70)]
  isFlat_project := by decide
  isFlat_collection := by decide
  nodup := by decide
  kind_ne_other := by decide
  dated := by decide
  typed := by
    have hint (n : Int) : ColumnKind.number.Has (.int n) := ⟨_, rfl⟩
    simp only [List.forall_mem_cons]
    refine ⟨holds_reading ?_ (.inr (hint _)), holds_reading ?_ (.inr (hint _)),
      holds_reading ?_ (.inr (hint _)), holds_reading ?_ (.inr (hint _)),
      holds_reading ?_ (.inl rfl), holds_reading ?_ (.inr (hint _)), by simp⟩
    all_goals exact ⟨_, rfl⟩

/-- A caller who asks for the last two voltages that are unlike most, those of one device apart. -/
def surprised : Params where
  eventCollection := some "measurements"
  targetProperty := some "voltage"
  latest := some "2"
  outliers := some "only"
  outliersIn := some "voltage"
  filters := some ("[\x7b\"property_name\": \"device\", \"operator\": \"ne\", "
    ++ "\"property_value\": \"d2\"\x7d]")
  timeframe := some "this_1_hours"

def lastOutliers : Request where
  archetype := .extraction
  project := "p1"
  collection := "measurements"
  target := none
  targets := ["voltage"]
  rank := none
  groupBy := none
  latest := 2
  interval := none
  outliers := .only
  outliersIn := some "voltage"
  filters := [⟨"device", .ne, .text "d2"⟩]
  timeframe := some "this_1_hours"
  byColumn := false

theorem filters_surprised : Gate.filters surprised.filters = .ok lastOutliers.filters := by
  -- equality of filters is not decidable, that of their parts is
  have hparts : (Gate.filters surprised.filters).map
      (List.map fun f => (f.property, f.operator, f.value.text?))
        = .ok [("device", .ne, some "d2")] := by decide +kernel
  obtain ⟨filters, hfilters, heq⟩ := Outcome.map_eq_ok hparts
  obtain ⟨⟨property, op, v⟩, rfl, hf⟩ := List.map_eq_singleton_iff.mp heq
  obtain ⟨rfl, rfl, hv⟩ : property = "device" ∧ op = .ne ∧ v.text? = some "d2" := by simpa using hf
  cases v with
  | text s =>
    cases hv
    exact hfilters
  | _ => cases hv

theorem request_surprised : Gate.request .extraction "p1" surprised 5000 = .ok lastOutliers := by
  rw [Gate.request_eq, filters_surprised]
  rfl

theorem resolve_lastOutliers :
    Timeframe.resolve (.ofText? lastOutliers.timeframe) noon = .ok (some ⟨eleven, noon⟩) := rfl

theorem newest_readings :
    readings.newest .byDate lastOutliers.latest (wants patient lastOutliers.outliers readings.kinds
        (some ⟨eleven, noon⟩) (some ("voltage", zeros)) lastOutliers.filters)
      = [reading 50 "d5" (.int 70), reading 30 "d3" (.int 12)] := by
  have hwants : readings.rows.map (wants patient lastOutliers.outliers readings.kinds
      (some ⟨eleven, noon⟩) (some ("voltage", zeros)) lastOutliers.filters)
        = [false, true, false, true, false, true] := by decide +kernel
  have hselected : readings.rows.filter (wants patient lastOutliers.outliers readings.kinds
      (some ⟨eleven, noon⟩) (some ("voltage", zeros)) lastOutliers.filters)
        = [reading 10 "d1" (.int 40), reading 30 "d3" (.int 12), reading 50 "d5" (.int 70)] := by
    simp only [readings, List.map_cons, List.map_nil, List.cons.injEq] at hwants
    simp [readings, List.filter, hwants]
  rw [Table.newest, hselected]
  rfl

/-! ## The answer -/

/-- A request that fetches rows comes to the shape of the newest rows that it wants. -/
theorem execute_eq_reference {a : Archetype} {p : Params} {defaultLatest : Int}
    {filters : List Filter} (hserves : w.Serves t arrangement)
    (hgate : Gate.request a t.project p defaultLatest = .ok r)
    (hcollection : r.collection = t.collection) (hraw : r.FetchesRows)
    (hcolumns : ∀ f ∈ r.filters, f.property ∈ t.columns.map Column.name)
    (hcoerce : Filter.coerceAll t.kinds r.filters = .ok filters)
    (hwindow : Timeframe.resolve (.ofText? r.timeframe) now = .ok window)
    (hnumber : ∀ x ∈ bandProperty r, Filter.kindFor t.kinds x = some .number)
    (hstats : (outlierStatistics s r).against w = .ok stats) :
    (execute s r now).against w
      = Shape.ofRows r ((t.newest arrangement r.latest
          (wants s r.outliers t.kinds window stats filters)).map (Record.part r.columns)) := by
  obtain ⟨_, hproject, _⟩ := Gate.request_eq_ok hgate
  have haccepted : ({ r with filters } : Request).Accepted :=
    (Gate.accepted_of_request hgate).coerced hcoerce
  have hflat : Name.isFlat r.project = true := hproject ▸ t.isFlat_project
  have hcolumns' := Filter.forall_property_of_coerceAll
    (· ∈ t.columns.map Column.name) hcoerce hcolumns
  obtain ⟨xs, hends⟩ := Run.exists_endsIn_against w (outlierStatistics s r)
  rw [hstats] at hends
  have hproperty := outlierStatistics_property hends
  obtain ⟨st, hst⟩ := assemble_of_accepted (s := s) (r := { r with filters }) hraw haccepted hflat
    hproperty window
  have hfetch := fetch_assemble (r := { r with filters }) hserves hraw haccepted hproject
    hcollection hproperty hcoerce hcolumns' hnumber hst
  refine (Run.against_bind_ok (coerceFilters_against hserves hproject hcollection hcoerce)).trans ?_
  have hcompile := compile_against (r := { r with filters }) hwindow hstats hst
  refine (Run.against_bind_ok hcompile).trans ?_
  refine (Run.against_bind_ok hfetch).trans ?_
  -- only some archetypes filter the rows again, and for them nothing changes
  split
  · refine Run.against_ofOutcome_bind (selectAll_part _ hcolumns' fun row hrow => ?_)
    obtain ⟨hmem, hwants⟩ := Table.mem_newest hrow
    rw [wants, Bool.and_eq_true] at hwants
    exact ⟨hmem, hwants.2⟩
  · rfl

theorem execute_eq_reference_lastOutliers :
    (execute patient lastOutliers noon).against (readings.world .byDate zeros)
      = .ok (Shape.rowValues [[("voltage", .int 70)], [("voltage", .int 12)]]) := by
  have hcolumns : ∀ f ∈ lastOutliers.filters, f.property ∈ readings.columns.map Column.name := by
    intro f hf
    rw [List.mem_singleton.mp hf]
    decide
  have hcoerce : Filter.coerceAll readings.kinds lastOutliers.filters
      = .ok lastOutliers.filters := rfl
  have hnumber : ∀ x ∈ bandProperty lastOutliers,
      Filter.kindFor readings.kinds x = some .number := by
    intro x hx
    cases hx
    rfl
  have hstats : (outlierStatistics patient lastOutliers).against (readings.world .byDate zeros)
      = .ok (some ("voltage", zeros)) := rfl
  rw [execute_eq_reference (readings.serves_world .byDate zeros) request_surprised rfl
    (.inr (.inr (.inl rfl))) hcolumns hcoerce resolve_lastOutliers hnumber hstats, newest_readings]
  rfl

end Engine
end EventQuery
