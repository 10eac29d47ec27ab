import EventQuery.Proofs.Engine.Builders
import EventQuery.Proofs.Reduction.Integer

/-!
# EventQuery.Proofs.Engine.Interval

One interval against the store. With an interval a request reduces fetched rows, and without one it
leaves the same aggregate to the store. For rows of a single interval and a column of integers and
nulls, `agrees_with_store_iff` says when both come to one value: the mean has to be one that a
double can hold, and a column whose values are listed has to be free of nulls.
-/

namespace EventQuery
namespace Bucket

variable {i : Interval} {start : Int} {rows : List Record}

theorem partitionFrom_same {before : List Record}
    (h : ∀ row ∈ rows, startOf (Record.value row Name.timestampColumn) i = .ok start) :
    partitionFrom i [⟨start, before⟩] rows = .ok [⟨start, before ++ rows⟩] := by
  induction rows generalizing before with
  | nil => simp [partitionFrom]
  | cons row rest ih =>
    rw [List.forall_mem_cons] at h
    have hadd : add start row [⟨start, before⟩] = [⟨start, before ++ [row]⟩] := by simp [add]
    rw [partitionFrom, h.1]
    dsimp only
    rw [hadd, ih h.2, List.append_assoc, List.singleton_append]

theorem partition_same (hrows : rows ≠ [])
    (h : ∀ row ∈ rows, startOf (Record.value row Name.timestampColumn) i = .ok start) :
    partition rows i = .ok [⟨start, rows⟩] := by
  cases rows with
  | nil => exact absurd rfl hrows
  | cons row rest =>
    rw [List.forall_mem_cons] at h
    rw [partition, partitionFrom, h.1]
    exact partitionFrom_same h.2

/-- Rows of one interval reduce to one value, if the interval has a name. -/
theorem reduce_same_eq_ok_iff {a : Archetype} {target : Option String} {rank : Option Binary64}
    {v : Value} (hrows : rows ≠ [])
    (h : ∀ row ∈ rows, startOf (Record.value row Name.timestampColumn) i = .ok start) :
    reduce rows i a target rank
        = .ok (.array [.object [("interval", .text (i.label start)), ("result", v)]]) ↔
      Calendar.inYears start = true ∧ Reduction.reduce rows a target rank = .ok v := by
  rw [reduce, partition_same hrows h]
  simp only [reduceAll, label]
  by_cases hyears : Calendar.inYears start = true
  · rw [if_pos hyears]
    cases Reduction.reduce rows a target rank with
    | error e => simp [Except.map]
    | ok w => simp [Except.map, hyears]
  · rw [if_neg hyears]
    simp [Except.map, hyears, faulty]

end Bucket

namespace Engine

open Reduction (shared meanOf)

theorem agrees_with_store_iff {s : Settings} {a : Archetype} {project : String} {p : Params}
    {defaultLatest : Int} {r : Request} {kinds : List (String × ColumnKind)}
    {filters : List Filter} {window : Option Window} {stats : Option (String × Statistics)}
    {st : Statement} {i : Interval} {start : Int} {rows : List Record}
    (hgate : Gate.request a project p defaultLatest = .ok r) (ha : a ∈ shared)
    (hinterval : r.interval = none) (hcoerce : Filter.coerceAll kinds r.filters = .ok filters)
    (hst : assemble s { r with filters } window stats = .ok st) (hrows : rows ≠ [])
    (hstart : ∀ row ∈ rows,
      Bucket.startOf (Record.value row Name.timestampColumn) i = .ok start)
    (hvalues : ∀ c ∈ r.target, ∀ row ∈ rows, (Record.value row c).IsIntegerOrNull) :
    ∃ items item, Statement.items? st.sql = some items ∧ items.getLast? = some item ∧
      ((∃ v, Shape.ofRows { r with interval := some i } rows
            = .ok (.array [.object [("interval", .text (i.label start)), ("result", v)]]) ∧
          item.expression.Denotes rows v) ↔
        Calendar.inYears start = true ∧
          (a = .average → ∀ c ∈ r.target, (Binary64.ofRat (meanOf rows c)).isFinite = true) ∧
          (a = .selectUnique → ∀ c ∈ r.target, ∀ row ∈ rows, Record.value row c ≠ .null)) := by
  have hconsistent := Gate.consistent_of_request hgate
  obtain rfl := hconsistent.archetype
  have hstored : r.archetype.resultName? = none ∧ r.archetype ≠ .extraction := by
    revert ha
    cases r.archetype <;> decide
  have hraw := r.not_fetchesRows hstored.1 hstored.2 hinterval
  have htarget : r.archetype ≠ .count → ∃ c, r.target = some c := fun hcount =>
    (hconsistent.target hstored.2 hcount).imp fun _ hc => hc.1
  have hshape : Shape.ofRows { r with interval := some i } rows
      = Bucket.reduce rows i r.archetype r.target none := by
    unfold Shape.ofRows
    split
    · exact absurd (by assumption) hstored.2
    · dsimp only
      rw [hstored.1]
      rfl
  refine ⟨_, r.computed, items?_assemble hgate hraw hcoerce hst, by simp [Request.items], ?_⟩
  rw [← Reduction.reduce_denotes_iff ha htarget hvalues, hshape]
  simp only [Bucket.reduce_same_eq_ok_iff hrows hstart, and_assoc, exists_and_left]

def voltages : Params where
  eventCollection := some "measurements"
  targetProperty := some "voltage"

/-- An aggregate of all voltages. -/
def ofVoltages (a : Archetype) : Request where
  archetype := a
  project := "p1"
  collection := "measurements"
  target := some "voltage"
  targets := []
  rank := none
  groupBy := none
  latest := patient.globalLimit
  interval := none
  outliers := .include
  outliersIn := none
  filters := []
  timeframe := none
  byColumn := false

/-- Two events at noon, the second without a voltage. -/
def oneVoltage : List Record :=
  [[(Name.timestampColumn, .datetime noon), ("voltage", .int 1)],
    [(Name.timestampColumn, .datetime noon), ("voltage", .null)]]

theorem startOf_oneVoltage : ∀ row ∈ oneVoltage,
    Bucket.startOf (Record.value row Name.timestampColumn) .hourly
      = .ok (Interval.hourly.floor noon.instant) := by
  intro row hrow
  simp only [oneVoltage, List.mem_cons, List.not_mem_nil, or_false] at hrow
  rcases hrow with rfl | rfl <;> rfl

theorem isIntegerOrNull_oneVoltage : ∀ row ∈ oneVoltage,
    (Record.value row "voltage").IsIntegerOrNull := by
  intro row hrow
  simp only [oneVoltage, List.mem_cons, List.not_mem_nil, or_false] at hrow
  rcases hrow with rfl | rfl
  · exact .inr ⟨1, rfl⟩
  · exact .inl rfl

theorem forall_mem_voltage {a : Archetype} {q : String → Prop} (h : q "voltage") :
    ∀ c ∈ (ofVoltages a).target, q c := by
  intro c hc
  cases hc
  exact h

theorem agrees_with_store_average : ∃ st items item v,
    assemble patient (ofVoltages .average) none none = .ok st ∧
      Statement.items? st.sql = some items ∧ items.getLast? = some item ∧
      Shape.ofRows { ofVoltages .average with interval := some .hourly } oneVoltage
        = .ok (.array [.object [("interval", .text "01-Jan-1:12:00"), ("result", v)]]) ∧
      item.expression.Denotes oneVoltage v := by
  have hgate : Gate.request .average "p1" voltages patient.globalLimit
      = .ok (ofVoltages .average) := rfl
  have hmean : (Binary64.ofRat (meanOf oneVoltage "voltage")).isFinite = true := by decide +kernel
  obtain ⟨st, hst⟩ : ∃ st, assemble patient (ofVoltages .average) none none = .ok st := ⟨_, rfl⟩
  obtain ⟨items, item, hitems, hitem, hagrees⟩ :=
    agrees_with_store_iff hgate (by decide) rfl
      (show Filter.coerceAll [] (ofVoltages .average).filters = .ok [] from rfl) hst (by decide)
      startOf_oneVoltage (forall_mem_voltage isIntegerOrNull_oneVoltage)
  obtain ⟨v, hv, hdenotes⟩ := hagrees.mpr
    ⟨by decide, fun _ => forall_mem_voltage hmean, nofun⟩
  exact ⟨st, items, item, v, hst, hitems, hitem, hv, hdenotes⟩

/-- The distinct voltages of one interval, without the null that is one of the store's. -/
theorem leaves_null_out : ∃ st,
    assemble patient (ofVoltages .selectUnique) none none = .ok st ∧
      Statement.items? st.sql = some [⟨.aggregate .members "voltage", "voltage"⟩] ∧
      Shape.ofRows { ofVoltages .selectUnique with interval := some .hourly } oneVoltage
        = .ok (.array [.object [("interval", .text "01-Jan-1:12:00"),
            ("result", .array [.int 1])]]) ∧
      ¬(Expression.aggregate .members "voltage").Denotes oneVoltage (.array [.int 1]) := by
  refine ⟨_, rfl, by decide, rfl, ?_⟩
  rintro ⟨items, hv, _, hmem⟩
  cases hv
  have hnull := (hmem .null).mpr
    (List.mem_map.mpr ⟨_, List.mem_cons_of_mem _ (List.mem_singleton_self _), rfl⟩)
  simp at hnull

end Engine
end EventQuery
