import EventQuery.Proofs.Engine.Conditions
import EventQuery.Proofs.Store.Table

/-!
# EventQuery.Proofs.Store.Reference

Which rows a request is to read, said in the natural orders of the columns: those of its window,
on its side of the outlier band, that meet its filters (`Engine.wants`). A store compares times by
their instants, so it sees rows and bound values on a UTC clock (`onUtc`); the lemmas here say that
its comparisons are then the natural ones, where null compares with nothing.
-/

namespace EventQuery

/-! ## Times on a UTC clock -/

/-- A time on a UTC clock, a date as its midnight; other values are left alone. -/
def Value.onUtc : Value → Value
  | date d => datetime (.utc (DateTime.ofDate d).instant)
  | datetime t => datetime (.utc t.instant)
  | v => v

@[simp] theorem Value.onUtc_null : Value.null.onUtc = .null := rfl

@[simp] theorem Value.onUtc_float (x : Binary64) : (Value.float x).onUtc = .float x := rfl

def Record.onUtc (row : Record) : Record := row.map fun (name, v) => (name, v.onUtc)

def Window.onUtc (w : Window) : Window := ⟨.utc w.start.instant, .utc w.stop.instant⟩

theorem Record.find?_onUtc (row : Record) (name : String) :
    Record.find? row.onUtc name = (Record.find? row name).map Value.onUtc := by
  induction row with
  | nil => rfl
  | cons field rest ih =>
    obtain ⟨key, v⟩ := field
    unfold Record.find? Record.onUtc at ih ⊢
    rw [List.map_cons, List.lookup_cons, List.lookup_cons]
    cases name == key with
    | true => rfl
    | false => exact ih

theorem Record.satisfies_onUtc {row : Record} {name : String} {op : Operator} {u v : Value}
    (h : Record.find? row name = some u) :
    row.onUtc.Satisfies name op v ↔ op.truth u.onUtc v = some true := by
  rw [Record.Satisfies, Record.find?_onUtc, h]
  simp

namespace ColumnKind

variable {k : ColumnKind} {u v : Value}

theorem onUtc_of_key {a : timestamp.Key} (h : timestamp.key? v = some a) :
    v.onUtc = .datetime (.utc a) := by
  have hkey {t : DateTime} (h : instant? t = some a) :
      Value.datetime (.utc t.instant) = .datetime (.utc a) := by
    rw [(instant?_eq_some h).2]
  rcases Has.timestamp_cases ⟨a, h⟩ with ⟨d, rfl⟩ | ⟨t, rfl⟩
  · exact hkey h
  · exact hkey h

theorem onUtc_of_has (hk : k ≠ .timestamp) (h : k.Has v) : v.onUtc = v := by
  cases k with
  | timestamp => exact absurd rfl hk
  | number => rcases h.number_cases with ⟨n, rfl⟩ | ⟨x, rfl⟩ <;> rfl
  | text =>
    obtain ⟨s, rfl⟩ := h.text_cases
    rfl
  | boolean =>
    obtain ⟨b, rfl⟩ := h.boolean_cases
    rfl
  | other =>
    obtain ⟨a, ha⟩ := h
    cases ha

/-! ## Comparisons of the store -/

theorem truth_of_stands {o : Ordering} (h : u.Stands v o) (op : Operator) :
    op.truth u v = some (op.accepts o) := by
  rw [Operator.truth, h.compare?_eq]

/-- A time against an instant. -/
theorem truth_instant {a : Int} (h : timestamp.key? u = some a) (op : Operator) (i : Int) :
    op.truth u.onUtc (.datetime (.utc i)) = some (decide (op.Relates a i)) := by
  have hstands := stands_datetime (t := .utc a) (s := .utc i) rfl rfl
  rw [DateTime.instant_utc a, DateTime.instant_utc i] at hstands
  rw [onUtc_of_key h, truth_of_stands hstands]
  exact congrArg some (Operator.accepts_cmp op a i)

theorem truth_of_key {a b : k.Key} (hu : k.key? u = some a) (hv : k.key? v = some b)
    (op : Operator) : op.truth u.onUtc v.onUtc = some (k.compares op u v) := by
  have hcompares : k.compares op u v = decide (op.Relates a b) := by
    rw [ColumnKind.compares, hu, hv]
  rw [hcompares]
  by_cases hk : k = .timestamp
  · subst hk
    rw [onUtc_of_key hv]
    exact truth_instant hu op b
  · rw [onUtc_of_has hk ⟨a, hu⟩, onUtc_of_has hk ⟨b, hv⟩, truth_of_stands (stands_of_key hk hu hv),
      Operator.accepts_cmp]

@[simp] theorem truth_null_left (op : Operator) (v : Value) : op.truth .null v = none := by
  cases v <;> rfl

@[simp] theorem truth_null_right (op : Operator) (u : Value) : op.truth u .null = none := by
  cases u <;> rfl

@[simp] theorem truth_nan_right (op : Operator) (u : Value) : op.truth u (.float .nan) = none := by
  have hquantity (q : Quantity) : q.compare? .undefined = none := by cases q <;> rfl
  have hnan : Binary64.nan.quantity = .undefined := rfl
  cases u <;>
    simp [Operator.truth, Value.compare?, Value.compareScalar?, Value.quantity?, hnan, hquantity,
      Value.isDecimal]

@[simp] theorem key?_null (k : ColumnKind) : k.key? .null = none := by
  cases k <;> rfl

@[simp] theorem key?_nan (k : ColumnKind) : k.key? (.float .nan) = none := by
  cases k <;> rfl

/-- What the store says of a column is what the natural order says, also of null and of NaN. -/
theorem truth_iff_compares (hu : u = .null ∨ k.Has u)
    (hv : k.Has v ∨ v = .null ∨ v = .float .nan) (op : Operator) :
    op.truth u.onUtc v.onUtc = some true ↔ k.compares op u v = true := by
  rcases hu with rfl | ⟨a, ha⟩
  · simp [compares]
  · rcases hv with ⟨b, hb⟩ | rfl | rfl
    · rw [truth_of_key ha hb, Option.some_inj]
    · simp [compares]
    · simp [compares]

end ColumnKind

/-! ## What a request asks of a row -/

open ColumnKind

/-- The instant of the date of a row. -/
def Record.instant? (row : Record) : Option Int :=
  timestamp.key? (Record.value row Name.timestampColumn)

/-- Whether the date of a row lies in a window, its start included and its end not. -/
def Window.contains (w : Window) (row : Record) : Bool :=
  match row.instant? with
  | some i => decide (w.start.instant ≤ i ∧ i < w.stop.instant)
  | none => false

/-- Whether a row is on the side of the band that a mode keeps, in the order of numbers. Without a
mean nothing is an outlier. -/
def Statistics.admits (stats : Statistics) (mode : OutlierMode) (width : Binary64)
    (column : String) (row : Record) : Bool :=
  let x := Record.value row column
  match mode, stats.mean with
  | .include, _ => true
  | .exclude, none => true
  | .only, none => false
  | .exclude, some mean =>
    let (low, high) := band mean stats.stddev width
    ColumnKind.number.compares .gte x (.float low)
      && ColumnKind.number.compares .lte x (.float high)
  | .only, some mean =>
    let (low, high) := band mean stats.stddev width
    ColumnKind.number.compares .lt x (.float low) || ColumnKind.number.compares .gt x (.float high)

/-- Whether a request asks for a row: it lies in the window, is on the right side of the band and
meets all filters. -/
def Engine.wants (s : Settings) (mode : OutlierMode) (kinds : List (String × ColumnKind))
    (window : Option Window) (stats : Option (String × Statistics)) (filters : List Filter)
    (row : Record) : Bool :=
  window.all (·.contains row)
    && stats.all (fun found => found.2.admits mode s.outlierWidth found.1 row)
    && filters.all (·.meets kinds row)

namespace Filter

variable {k : ColumnKind}

/-- Values that were brought into a kind are on a UTC clock already. -/
theorem onUtc_of_coerceValue {column : String} {raw v : Value} (hk : k ≠ .other) :
    coerceValue column raw k = .ok v → v.onUtc = v := by
  fun_cases coerceValue column raw k with
  | case1 =>
    rename_i hraw
    intro h
    cases h
    cases raw with
    | null => rfl
    | _ => cases hraw
  | case2 => exact absurd rfl hk
  | case3 =>
    intro h
    obtain ⟨i, rfl, _⟩ := toTimestamp_eq_ok h
    rw [Value.onUtc, DateTime.instant_utc]
  | case4 =>
    intro h
    obtain ⟨x, rfl⟩ := toNumber_eq_ok h
    rfl
  | case5 =>
    intro h
    obtain ⟨s, rfl⟩ := toText_eq_ok h
    rfl
  | case6 =>
    intro h
    obtain ⟨b, rfl⟩ := toBoolean_eq_ok h
    rfl

end Filter

namespace Table

variable {t : Table} {row : Record}

theorem value_eq {name : String} {u : Value} (h : Record.find? row name = some u) :
    Record.value row name = u := by
  rw [Record.value, h]
  rfl

/-- What the store finds in the column of the dates. -/
theorem satisfies_instant (hrow : row ∈ t.rows) (op : Operator) (i : Int) :
    row.onUtc.Satisfies Name.timestampColumn op (.datetime (.utc i)) ↔
      ∃ a, row.instant? = some a ∧ op.Relates a i := by
  have hdated : Name.timestampColumn ∈ t.columns.map Column.name := by
    obtain ⟨c, hc, heq⟩ := List.mem_map.mp t.dated
    rw [← (Prod.mk.inj heq).1]
    exact List.mem_map_of_mem hc
  obtain ⟨u, hu⟩ := find?_of_mem_columns hrow hdated
  obtain ⟨k, hkind, _, hk⟩ := kind_of_find? hrow hu
  have htimestamp : Filter.kindFor t.kinds Name.timestampColumn = some .timestamp := rfl
  cases hkind.symm.trans htimestamp
  have hsome (a : Int) (ha : timestamp.key? u = some a) :
      op.truth u.onUtc (.datetime (.utc i)) = some true ↔
        ∃ b : Int, timestamp.key? u = some b ∧ op.Relates b i := by
    rw [truth_instant ha, ha, Option.some_inj, decide_eq_true_iff]
    constructor
    · exact fun h => ⟨a, rfl, h⟩
    · rintro ⟨_, heq, h⟩
      cases heq
      exact h
  rw [Record.satisfies_onUtc hu, Record.instant?, value_eq hu]
  rcases hk with rfl | ⟨a, ha⟩
  · simp
  · exact hsome a ha

theorem holds_window (hrow : row ∈ t.rows) (window : Option Window) :
    (∀ w ∈ window.map Window.onUtc, w.Holds row.onUtc) ↔ window.all (·.contains row) = true := by
  cases window with
  | none => simp
  | some w =>
    have hholds : w.onUtc.Holds row.onUtc ↔ w.contains row = true := by
      rw [Window.Holds, Window.onUtc, satisfies_instant hrow, satisfies_instant hrow,
        Window.contains]
      cases row.instant? with
      | none => simp
      | some a => simp [Operator.Relates]
    simpa using hholds

/-- What the store says of a column of numbers and a bound. -/
theorem satisfies_number {name : String} (hrow : row ∈ t.rows)
    (hnumber : Filter.kindFor t.kinds name = some .number) (op : Operator) (x : Binary64) :
    row.onUtc.Satisfies name op (.float x) ↔
      number.compares op (Record.value row name) (.float x) = true := by
  have hv : number.Has (.float x) ∨ Value.float x = .null ∨ Value.float x = .float .nan := by
    cases hx : x.isNaN with
    | true => exact .inr (.inr (congrArg Value.float (Binary64.eq_nan_of_isNaN hx)))
    | false => exact .inl (Filter.has_float hx)
  cases hu : Record.find? row name with
  | none =>
    have hvalue : Record.value row name = .null := by
      rw [Record.value, hu]
      rfl
    rw [hvalue, Record.Satisfies, Record.find?_onUtc, hu]
    simp [compares]
  | some u =>
    obtain ⟨k, hkind, _, hk⟩ := kind_of_find? hrow hu
    cases hnumber.symm.trans hkind
    rw [Record.satisfies_onUtc hu, value_eq hu]
    exact truth_iff_compares hk hv op

theorem holds_band {s : Settings} {r : Request} {stats : Option (String × Statistics)}
    (hrow : row ∈ t.rows)
    (hnumber : ∀ found ∈ stats, Filter.kindFor t.kinds found.1 = some .number) :
    Engine.InBand s r stats row.onUtc ↔
      stats.all (fun found => found.2.admits r.outliers s.outlierWidth found.1 row) = true := by
  cases stats with
  | none => simp [Engine.InBand]
  | some found =>
    obtain ⟨column, mean, stddev⟩ := found
    have hcolumn := satisfies_number hrow (hnumber _ rfl)
    have hkeeps : Statistics.Keeps ⟨mean, stddev⟩ r.outliers s.outlierWidth column row.onUtc ↔
        Statistics.admits ⟨mean, stddev⟩ r.outliers s.outlierWidth column row = true := by
      unfold Statistics.Keeps Statistics.admits
      cases r.outliers with
      | «include» => simp
      | exclude => cases mean <;> simp [hcolumn]
      | only => cases mean <;> simp [hcolumn]
    simpa [Engine.InBand] using hkeeps

/-- Filters say in the store what they say in the natural order of their columns. -/
theorem holds_filters {raw filters : List Filter} (hrow : row ∈ t.rows)
    (hcoerce : Filter.coerceAll t.kinds raw = .ok filters)
    (hcolumns : ∀ f ∈ filters, f.property ∈ t.columns.map Column.name) :
    (∀ f ∈ filters, row.onUtc.Satisfies f.property f.operator f.value) ↔
      filters.all (·.meets t.kinds row) = true := by
  rw [List.all_eq_true]
  refine forall₂_congr fun f hf => ?_
  obtain ⟨u, hu⟩ := find?_of_mem_columns hrow (hcolumns f hf)
  obtain ⟨k, hkind, hother, hk⟩ := kind_of_find? hrow hu
  have hmeets : f.meets t.kinds row = k.compares f.operator u f.value := by
    rw [Filter.meets, hu, hkind]
  obtain ⟨_, hgiven⟩ := Filter.coerceValue_of_coerceAll hcoerce hf hkind
  have hvalue : k.Has f.value ∨ f.value = .null ∨ f.value = .float .nan := by
    by_cases hnull : f.value = .null
    · exact .inr (.inl hnull)
    · by_cases hnan : f.value = .float .nan
      · exact .inr (.inr hnan)
      · exact .inl (Filter.has_of_coerceValue hother hgiven hnull hnan)
  rw [Record.satisfies_onUtc hu, hmeets, ← truth_iff_compares hk hvalue,
    Filter.onUtc_of_coerceValue hother hgiven]

end Table
end EventQuery
