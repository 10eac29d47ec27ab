import EventQuery.Proofs.Engine.Conditions

/-!
# EventQuery.Proofs.Engine.Compile

What a compiled statement means. Its WHERE clause, read back from the text with the bound values in
place of the placeholders, is true of exactly the rows that the request asks for
(`compile_selects`), and its placeholders are numbered from left to right, one for each bound value
(`compile_numbers_values`). Nothing is assumed of the request or of the backend.
-/

namespace EventQuery
namespace Engine

open Statement

variable {s : Settings} {r : Request} {now : DateTime} {xs : List Exchange} {st : Statement}

/-! ## One request -/

/-- The typical voltages of the last hour, those of at least ten volts. -/
def typicalVoltages : Request where
  archetype := .count
  project := "p1"
  collection := "measurements"
  target := none
  targets := []
  rank := none
  groupBy := none
  latest := 50
  interval := none
  outliers := .exclude
  outliersIn := some "voltage"
  filters := [⟨"voltage", .gte, .int 10⟩]
  timeframe := some "this_1_hours"
  byColumn := false

/-- Settings under which the cache has all the time it needs. -/
def patient : Settings := { cacheTimeout := .infinity false }

def noon : DateTime := .utc (12 * Calendar.microsPerHour)

def eleven : DateTime := .utc (11 * Calendar.microsPerHour)

/-- Statistics that are not in the cache, computed by the store and put into the cache. -/
def computesZeros : List Exchange :=
  [.get "p1_measurements_voltage" (.ok none),
    .statement ⟨"SELECT AVG(\"voltage\") AS \"mean\", STDDEV(\"voltage\") AS \"stddev\""
      ++ " FROM \"p1_measurements\"", []⟩
      (.ok [[("mean", .float .zero), ("stddev", .float .zero)]]),
    .set "p1_measurements_voltage" "\x7b\"mean\": 0.0, \"stddev\": 0.0\x7d" (.ok ())]

def zeros : Statistics := ⟨some .zero, some .zero⟩

theorem outlierStatistics_typicalVoltages :
    (outlierStatistics patient typicalVoltages).EndsIn computesZeros
      (.ok (some ("voltage", zeros))) :=
  .get (.statement (.set .done))

theorem resolve_typicalVoltages :
    Timeframe.resolve (.ofText? typicalVoltages.timeframe) noon = .ok (some ⟨eleven, noon⟩) := rfl

theorem compile_typicalVoltages :
    ∃ st, (compile patient typicalVoltages noon).EndsIn computesZeros (.ok st) :=
  ⟨_, compile_endsIn_ok.mpr ⟨_, _, resolve_typicalVoltages, outlierStatistics_typicalVoltages, rfl⟩⟩

/-! ## Every request -/

theorem compile_selects (h : (compile s r now).EndsIn xs (.ok st)) :
    ∃ window stats clause,
      Timeframe.resolve (.ofText? r.timeframe) now = .ok window ∧
      (outlierStatistics s r).EndsIn xs (.ok stats) ∧ stats.map (·.1) = bandProperty r ∧
      where? st.sql = some clause ∧
      (clause = none ↔ window = none ∧ (∀ found ∈ stats, found.2.KeepsAll r.outliers) ∧
        r.filters = []) ∧
      ∀ row, Selected row st.params clause ↔
        (∀ w ∈ window, w.Holds row) ∧
        (∀ found ∈ stats, found.2.Keeps r.outliers s.outlierWidth found.1 row) ∧
        ∀ f ∈ r.filters, row.Satisfies f.property f.operator f.value := by
  obtain ⟨window, stats, hwindow, hstats, hassemble⟩ := compile_endsIn_ok.mp h
  obtain ⟨ps, hst, hformed, _, hnone, hholds⟩ := assemble_eq_ok hassemble
  obtain ⟨clause, hclause, hempty, hselected⟩ := where_ofRequest hformed hst
  refine ⟨window, stats, clause, hwindow, hstats, outlierStatistics_property hstats, hclause,
    hempty.trans hnone, fun row => ?_⟩
  exact (hselected row).trans (hholds row)

theorem compile_selects_typicalVoltages :
    ∃ st clause, (compile patient typicalVoltages noon).EndsIn computesZeros (.ok st) ∧
      where? st.sql = some (some clause) ∧
      ∀ row, clause.truth row st.params = some true ↔
        Window.Holds ⟨eleven, noon⟩ row ∧
        zeros.Keeps .exclude patient.outlierWidth "voltage" row ∧
        row.Satisfies "voltage" .gte (.int 10) := by
  obtain ⟨st, h⟩ := compile_typicalVoltages
  obtain ⟨window, stats, clause, hwindow, hstats, _, hclause, hnone, hrows⟩ := compile_selects h
  cases hwindow.symm.trans resolve_typicalVoltages
  cases hstats.deterministic outlierStatistics_typicalVoltages
  cases clause with
  | none => cases (hnone.mp rfl).1
  | some clause =>
    refine ⟨st, clause, h, hclause, fun row => (hrows row).trans ?_⟩
    simp [typicalVoltages]

theorem compile_numbers_values (h : (compile s r now).EndsIn xs (.ok st)) :
    Token.places (Token.ofText st.sql)
        = (List.range st.params.length).map (fun i => toString (i + 1)) ∧
      (∃ ts, Token.ofText st.sql
        = ts ++ [.word "LIMIT", .place (toString st.params.length)]) ∧
      ∃ window stats, Timeframe.resolve (.ofText? r.timeframe) now = .ok window ∧
        (outlierStatistics s r).EndsIn xs (.ok stats) ∧
        st.params = (window.toList.flatMap fun w => [.datetime w.start, .datetime w.stop])
          ++ (stats.toList.flatMap fun found => found.2.ends r.outliers s.outlierWidth)
          ++ r.filters.map (·.value) ++ [.int r.latest] := by
  obtain ⟨window, stats, hwindow, hstats, hassemble⟩ := compile_endsIn_ok.mp h
  obtain ⟨ps, hst, hformed, hvalues, _⟩ := assemble_eq_ok hassemble
  refine ⟨?_, ?_, window, stats, hwindow, hstats, ?_⟩
  · rw [places_ofRequest hformed hst, Token.numbered, List.range_eq_range']
  · obtain ⟨columns, table, tail, hsql, _⟩ := layout_ofRequest hformed hst
    rw [hsql, layout, ← List.append_assoc]
    exact ⟨_, rfl⟩
  · rw [params_ofRequest hst, hvalues, boundValues]

theorem compile_numbers_typicalVoltages :
    ∃ st, (compile patient typicalVoltages noon).EndsIn computesZeros (.ok st) ∧
      Token.places (Token.ofText st.sql) = ["1", "2", "3", "4", "5", "6"] ∧
      ∃ low high, st.params = [.datetime eleven, .datetime noon, low, high, .int 10, .int 50] := by
  obtain ⟨st, h⟩ := compile_typicalVoltages
  obtain ⟨hplaces, _, window, stats, hwindow, hstats, hparams⟩ := compile_numbers_values h
  cases hwindow.symm.trans resolve_typicalVoltages
  cases hstats.deterministic outlierStatistics_typicalVoltages
  refine ⟨st, h, ?_, _, _, hparams⟩
  rw [hplaces, hparams]
  rfl

end Engine
end EventQuery
