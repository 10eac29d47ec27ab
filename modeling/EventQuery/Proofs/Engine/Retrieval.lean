import EventQuery.Engine
import EventQuery.Proofs.Run.Exchange
import Mathlib.Data.List.Basic

/-!
# EventQuery.Proofs.Engine.Retrieval

What becomes of the rows that the store returns. Filters are applied to them once more for some
archetypes; `selectAll_eq_self_iff` says when that leaves every row. A row of an aggregate may have
the name of a filtered property for a column, and what such a column holds is no longer a value of
the property but a list of values or a number. The row is lost then unless that, too, compares as
the filter asks, although it was computed from events that all do (`execute_eq_stored_iff`).
-/

namespace EventQuery
namespace Filter

variable {f : Filter} {filters : List Filter} {rows kept : List Record}

theorem accepts_eq_true_iff {row : Record} :
    f.accepts row = .ok true ↔
      ∀ v, Record.find? row f.property = some v → compares f.operator v f.value = .ok true := by
  unfold accepts
  cases Record.find? row f.property with
  | none => simp
  | some v => simp

theorem select_cons_eq_ok {row : Record} (h : select f (row :: rows) = .ok kept) :
    ∃ keep rest, f.accepts row = .ok keep ∧ select f rows = .ok rest ∧
      kept = if keep then row :: rest else rest := by
  unfold select at h
  split at h
  · cases h
  · rename_i keep hkeep
    split at h
    · cases h
    · rename_i rest hrest
      injection h with h
      exact ⟨keep, rest, hkeep, hrest, h.symm⟩

theorem selectAll_cons_eq_ok (h : selectAll (f :: filters) rows = .ok kept) :
    ∃ first, select f rows = .ok first ∧ selectAll filters first = .ok kept := by
  unfold selectAll at h
  split at h
  · cases h
  · rename_i first hfirst
    exact ⟨first, hfirst, h⟩

theorem select_sublist (h : select f rows = .ok kept) : kept.Sublist rows := by
  induction rows generalizing kept with
  | nil =>
    cases h
    exact .refl _
  | cons row rows ih =>
    obtain ⟨keep, rest, _, hrest, rfl⟩ := select_cons_eq_ok h
    cases keep with
    | true => exact (ih hrest).cons_cons row
    | false => exact (ih hrest).cons row

theorem select_eq_self_iff : select f rows = .ok rows ↔ ∀ row ∈ rows, f.accepts row = .ok true := by
  induction rows with
  | nil => simp [select]
  | cons row rows ih =>
    rw [List.forall_mem_cons, ← ih]
    constructor
    · intro h
      obtain ⟨keep, rest, hkeep, hrest, heq⟩ := select_cons_eq_ok h
      cases keep with
      | true =>
        injection heq with _ hrows
        exact ⟨hkeep, hrows ▸ hrest⟩
      | false =>
        -- what is left of a list without its first row is shorter than the list
        have hlength := (select_sublist hrest).length_le
        rw [if_neg (by simp)] at heq
        rw [← heq, List.length_cons] at hlength
        omega
    · rintro ⟨hrow, hrest⟩
      rw [select, hrow, hrest]
      rfl

theorem selectAll_sublist (h : selectAll filters rows = .ok kept) : kept.Sublist rows := by
  induction filters generalizing rows with
  | nil =>
    cases h
    exact .refl _
  | cons f filters ih =>
    obtain ⟨first, hfirst, hrest⟩ := selectAll_cons_eq_ok h
    exact (ih hrest).trans (select_sublist hfirst)

theorem selectAll_eq_self_iff :
    selectAll filters rows = .ok rows ↔ ∀ row ∈ rows, ∀ f ∈ filters, f.accepts row = .ok true := by
  induction filters with
  | nil => simp [selectAll]
  | cons f filters ih =>
    constructor
    · intro h
      obtain ⟨first, hfirst, hrest⟩ := selectAll_cons_eq_ok h
      have heq : first = rows :=
        (select_sublist hfirst).eq_of_length_le (selectAll_sublist hrest).length_le
      rw [heq] at hfirst hrest
      intro row hrow
      rw [List.forall_mem_cons]
      exact ⟨select_eq_self_iff.mp hfirst row hrow, ih.mp hrest row hrow⟩
    · intro h
      have hfirst : select f rows = .ok rows :=
        select_eq_self_iff.mpr fun row hrow => h row hrow f (by simp)
      rw [selectAll, hfirst]
      exact ih.mpr fun row hrow g hg => h row hrow g (List.mem_cons_of_mem f hg)

end Filter

namespace Engine

/-- Filters get values of other kinds, and nothing else changes. -/
theorem coerceFilters_endsIn_ok {s : Settings} {r r' : Request} {xs : List Exchange}
    (h : (coerceFilters s r).EndsIn xs (.ok r')) : ∃ filters, r' = { r with filters } := by
  unfold coerceFilters at h
  split at h
  · cases h
    exact ⟨r.filters, rfl⟩
  · obtain ⟨_, _, _, _, _, h⟩ := Run.endsIn_bind_ok.mp h
    obtain ⟨filters, _, _, _, _, h⟩ := Run.endsIn_bind_ok.mp h
    cases h
    exact ⟨filters, rfl⟩

/-- The archetypes that collect the distinct values of a property. -/
def collectsUnique (a : Archetype) : Prop := a = .countUnique ∨ a = .selectUnique

theorem rowValues_inj {rows kept : List Record} :
    Shape.rowValues kept = Shape.rowValues rows ↔ kept = rows := by
  constructor
  · intro h
    injection h with h
    exact List.map_injective_iff.mpr (fun _ _ h => by injection h) h
  · rintro rfl
    rfl

theorem ofRows_eq {r : Request} (hunique : collectsUnique r.archetype)
    (hinterval : r.interval = none) (rows : List Record) :
    Shape.ofRows r rows = .ok (Shape.rowValues rows) := by
  rcases hunique with h | h <;>
    simp [Shape.ofRows, h, Archetype.resultName?, Shape.aggregate, hinterval]

/-! ## One request -/

/-- The distinct devices among the events of one device. -/
def uniqueDevices : Request where
  archetype := .selectUnique
  project := "p1"
  collection := "measurements"
  target := some "device"
  targets := []
  rank := none
  groupBy := none
  latest := 5000
  interval := none
  outliers := .include
  outliersIn := none
  filters := [⟨"device", .eq, .text "d1"⟩]
  timeframe := none
  byColumn := false

/-- Their number. -/
def countOfDevices : Request := { uniqueDevices with archetype := .countUnique }

def listsColumns : Exchange :=
  .statement ⟨Statement.columnList ++ "= $1", [.text "p1_measurements"]⟩
    (.ok [[("column_name", .text "device"), ("data_type", .text "text")]])

def selectsDevices : Statement :=
  ⟨"SELECT ARRAY_AGG(DISTINCT \"device\") AS \"device\" FROM \"p1_measurements\""
    ++ " WHERE (\"device\" = $1) LIMIT $2", [.text "d1", .int 5000]⟩

def countsDevices : Statement :=
  ⟨"SELECT COUNT(DISTINCT \"device\") AS \"count\" FROM \"p1_measurements\""
    ++ " WHERE (\"device\" = $1) LIMIT $2", [.text "d1", .int 5000]⟩

/-! ## Every request -/

theorem execute_eq_stored_iff {s : Settings} {r r' : Request} {now : DateTime}
    {xs ys : List Exchange} {st : Statement} {raw : List Record}
    (hunique : collectsUnique r.archetype) (hinterval : r.interval = none)
    (hcoerce : (coerceFilters s r).EndsIn xs (.ok r'))
    (hcompile : (compile s r' now).EndsIn ys (.ok st)) :
    (execute s r now).EndsIn (xs ++ (ys ++ [.statement st (.ok raw)]))
        (.ok (Shape.rowValues (raw.map Client.decodeRecord))) ↔
      ∀ row ∈ raw.map Client.decodeRecord, ∀ f ∈ r'.filters, ∀ v,
        Record.find? row f.property = some v → Filter.compares f.operator v f.value = .ok true := by
  obtain ⟨filters, rfl⟩ := coerceFilters_endsIn_ok hcoerce
  have hfetch : (Client.fetch s st).EndsIn [.statement st (.ok raw)]
      (.ok (raw.map Client.decodeRecord)) := Client.fetch_endsIn_ok.mpr ⟨raw, rfl, rfl⟩
  have hfilters : r.archetype.filtersRows = true := by
    rcases hunique with h | h <;> rw [h] <;> rfl
  simp only [← Filter.accepts_eq_true_iff]
  rw [← Filter.selectAll_eq_self_iff]
  refine hcoerce.bind_iff.trans (hcompile.bind_iff.trans ?_)
  rw [← List.append_nil [Exchange.statement st (.ok raw)]]
  refine hfetch.bind_iff.trans ?_
  have hshape := ofRows_eq (r := { r with filters }) hunique hinterval
  rw [if_pos hfilters]
  generalize raw.map Client.decodeRecord = rows
  cases hselect : Filter.selectAll filters rows with
  | error e =>
    refine ⟨fun h => ?_, fun h => ?_⟩
    · cases h
    · cases h
  | ok kept =>
    show (Run.ofOutcome (Shape.ofRows { r with filters } kept)).EndsIn [] _ ↔ _
    rw [hshape, Run.endsIn_ofOutcome, Except.ok.injEq, Except.ok.injEq, rowValues_inj]
    constructor
    · exact fun h => h.2.symm
    · exact fun h => ⟨rfl, h.symm⟩

/-- The one row that the store computed is lost: its array is not the text of the filter. -/
theorem execute_loses_devices :
    (execute {} uniqueDevices (.utc 0)).EndsIn
        [listsColumns, .statement selectsDevices (.ok [[("device", .array [.text "d1"])]])]
        (.ok (.array [])) ∧
      ¬(execute {} uniqueDevices (.utc 0)).EndsIn
        [listsColumns, .statement selectsDevices (.ok [[("device", .array [.text "d1"])]])]
        (.ok (Shape.rowValues [[("device", .array [.text "d1"])]])) := by
  have hlost : (execute {} uniqueDevices (.utc 0)).EndsIn
      [listsColumns, .statement selectsDevices (.ok [[("device", .array [.text "d1"])]])]
      (.ok (.array [])) := .statement (.statement .done)
  refine ⟨hlost, fun h => ?_⟩
  cases hlost.deterministic h

theorem execute_eq_stored_count :
    (execute {} countOfDevices (.utc 0)).EndsIn
      [listsColumns, .statement countsDevices (.ok [[("count", .int 1)]])]
      (.ok (Shape.rowValues [[("count", .int 1)]])) := by
  have hcoerce : (coerceFilters {} countOfDevices).EndsIn [listsColumns] (.ok countOfDevices) :=
    .statement .done
  have hcompile : (compile {} countOfDevices (.utc 0)).EndsIn [] (.ok countsDevices) := .done
  refine (execute_eq_stored_iff (.inl rfl) rfl hcoerce hcompile).mpr ?_
  intro row hrow f hf v hv
  cases List.mem_singleton.mp hrow
  cases List.mem_singleton.mp hf
  cases hv

end Engine
end EventQuery
