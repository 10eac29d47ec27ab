import EventQuery.Proofs.Run.World
import EventQuery.Proofs.Statement.Reading
import EventQuery.Proofs.Statement.Source
import EventQuery.Proofs.Store.Reference
import Mathlib.Data.List.Sort

/-!
# EventQuery.Proofs.Store.Answers

A store that holds a table. It reads each statement from its text: one that fetches rows of the
table is answered with the newest rows of which the clause is true, and one about the columns of
the table with their data types (`World.Serves`). Rows of one instant, and rows without a date, may
come in any order (`Arrangement`). Each table has such a world for each order (`serves_world`), and
what it says of the columns is read as the kinds that they have (`columnKinds_against`).
-/

namespace EventQuery

open Statement

/-- A way to put rows in order, the newest first. -/
structure Arrangement where
  arrange : List Record → List Record
  perm : ∀ rows, (arrange rows).Perm rows
  newestFirst : ∀ rows, (arrange rows).Pairwise fun before after =>
    ∀ i j, before.instant? = some i → after.instant? = some j → j ≤ i

namespace Record

/-- The order of dates, the newest first; a row without a date comes before all others. -/
def notOlder (row other : Record) : Bool :=
  match row.instant?, other.instant? with
  | none, _ => true
  | some _, none => false
  | some i, some j => decide (j ≤ i)

instance : Std.Total fun row other : Record => row.notOlder other = true where
  total row other := by
    unfold notOlder
    cases row.instant? <;> cases other.instant? <;> simp [Int.le_total]

instance : IsTrans Record fun row other => row.notOlder other = true where
  trans row other third := by
    unfold notOlder
    cases row.instant? <;> cases other.instant? <;> cases third.instant? <;> simp
    omega

end Record

/-- The order of a store that puts missing dates first. -/
def Arrangement.byDate : Arrangement where
  arrange := List.insertionSort fun row other => row.notOlder other = true
  perm := List.perm_insertionSort _
  newestFirst rows := by
    refine (List.pairwise_insertionSort (fun row other : Record => row.notOlder other = true)
      rows).imp ?_
    intro before after h i j hi hj
    rw [Record.notOlder, hi, hj] at h
    simpa using h

instance (row : Record) (params : List Value) :
    (clause : Option Condition) → Decidable (Selected row params clause)
  | none => inferInstanceAs (Decidable True)
  | some c => inferInstanceAs (Decidable (c.truth row params = some true))

namespace Table

/-- The newest of the rows that a test selects, up to a number of rows. -/
def newest (t : Table) (arrangement : Arrangement) (cap : Int) (selects : Record → Bool) :
    List Record :=
  (arrangement.arrange (t.rows.filter selects)).take cap.toNat

/-- The rows that a statement fetches. Times are compared as instants. -/
def fetch (t : Table) (arrangement : Arrangement) (q : Raw) : List Record :=
  (t.newest arrangement q.cap fun row =>
    decide (Selected row.onUtc (q.params.map Value.onUtc) q.clause)).map (Record.part q.columns)

/-- The data types of the columns. -/
def columnRows (t : Table) : List Record :=
  t.columns.map fun c =>
    [("table_name", .text t.name), ("column_name", .text c.name), ("data_type", .text c.dataType)]

variable {t : Table} {arrangement : Arrangement} {cap : Int} {selects : Record → Bool}

theorem mem_newest {row : Record} (h : row ∈ t.newest arrangement cap selects) :
    row ∈ t.rows ∧ selects row = true := by
  have hrows := (arrangement.perm _).mem_iff.mp (List.mem_of_mem_take h)
  exact List.mem_filter.mp hrows

theorem newest_congr {other : Record → Bool} (h : ∀ row ∈ t.rows, selects row = other row) :
    t.newest arrangement cap selects = t.newest arrangement cap other := by
  rw [newest, newest, List.filter_congr h]

end Table

/-- A world with a store that holds a table. -/
structure World.Serves (w : World) (t : Table) (arrangement : Arrangement) : Prop where
  columnTypes : ∀ st, Statement.columnTypes (.text t.project) (.text t.collection) = .ok st →
    w.statement st = .ok t.columnRows
  raw : ∀ st q, st.raw? = some q → q.table = t.name → w.statement st = .ok (t.fetch arrangement q)

theorem Statement.raw?_columnTypes {project collection : Value} {st : Statement}
    (h : columnTypes project collection = .ok st) : st.raw? = none := by
  obtain ⟨_, _, _, _, _, htokens⟩ := ofText_columnTypes h
  unfold raw?
  rw [htokens]
  rfl

namespace Table

/-- The answer to a statement. Every property has the same statistics. -/
def answer (t : Table) (arrangement : Arrangement) (stats : Statistics) (st : Statement) :
    List Record :=
  match st.raw? with
  | some q => t.fetch arrangement q
  | none => if st.params.isEmpty then [stats.toRecord] else t.columnRows

/-- A world with a table and an empty cache. -/
def world (t : Table) (arrangement : Arrangement) (stats : Statistics) : World where
  statement st := .ok (t.answer arrangement stats st)
  get _ := .ok none
  set _ _ := .ok ()

theorem serves_world (t : Table) (arrangement : Arrangement) (stats : Statistics) :
    (t.world arrangement stats).Serves t arrangement where
  columnTypes st hst := by
    obtain ⟨_, _, _, _, hparams, _⟩ := ofText_columnTypes hst
    refine congrArg Except.ok ?_
    rw [answer, raw?_columnTypes hst, hparams]
    rfl
  raw st q hq _ := by
    refine congrArg Except.ok ?_
    rw [answer, hq]

end Table

/-! ## The columns of the table -/

theorem Assoc.set_of_not_mem {α : Type} {key : String} {v : α} {xs : List (String × α)}
    (h : key ∉ xs.map Prod.fst) : set key v xs = xs ++ [(key, v)] := by
  induction xs with
  | nil => rfl
  | cons x rest ih =>
    obtain ⟨k, w⟩ := x
    rw [List.map_cons, List.mem_cons, not_or] at h
    have hne : (k == key) = false := by simpa using Ne.symm h.1
    rw [set, if_neg (by simp [hne]), ih h.2]
    rfl

theorem Assoc.foldl_set_of_nodup {α : Type} {acc xs : List (String × α)}
    (h : ((acc ++ xs).map Prod.fst).Nodup) :
    xs.foldl (fun r (k, v) => set k v r) acc = acc ++ xs := by
  induction xs generalizing acc with
  | nil => simp
  | cons x rest ih =>
    obtain ⟨k, v⟩ := x
    have hk : k ∉ acc.map Prod.fst := by
      rw [List.map_append, List.nodup_append] at h
      exact fun hmem => h.2.2 k hmem k (by simp) rfl
    rw [List.foldl_cons]
    dsimp only
    rw [set_of_not_mem hk, ih (by simpa using h)]
    simp

theorem Assoc.ofList_of_nodup {α : Type} {xs : List (String × α)}
    (h : (xs.map Prod.fst).Nodup) : ofList xs = xs := @foldl_set_of_nodup α [] xs h

namespace Engine

variable {w : World} {t : Table} {arrangement : Arrangement} {s : Settings}

theorem columnsOf_columnRows (name : String) (columns : List Column) :
    columnsOf (columns.map fun c => [("table_name", .text name), ("column_name", .text c.name),
      ("data_type", .text c.dataType)]) = .ok (columns.map fun c => (c.name, c.kind)) := by
  induction columns with
  | nil => rfl
  | cons c rest ih =>
    have hfirst : columnOf [("table_name", .text name), ("column_name", .text c.name),
        ("data_type", .text c.dataType)] = .ok (c.name, c.kind) := rfl
    rw [List.map_cons, columnsOf, hfirst, ih]
    rfl

/-- The kinds that the store tells are those of the columns. -/
theorem columnKinds_against (h : w.Serves t arrangement) :
    (columnKinds s (.text t.project) (.text t.collection)).against w = .ok t.kinds := by
  obtain ⟨st, hst⟩ : ∃ st, Statement.columnTypes (.text t.project) (.text t.collection)
      = .ok st := by
    rw [Statement.columnTypes, Name.flat_of_isFlat _ t.isFlat_project,
      Name.flat_of_isFlat _ t.isFlat_collection]
    exact ⟨_, rfl⟩
  have hdecode : t.columnRows.map Client.decodeRecord = t.columnRows := by
    rw [Table.columnRows, List.map_map]
    rfl
  have htable : t.columnRows.filter (ofTable t.name) = t.columnRows := by
    rw [List.filter_eq_self]
    intro row hrow
    obtain ⟨c, _, rfl⟩ := List.mem_map.mp hrow
    show (Value.text t.name).same (.text t.name) = true
    simp [Value.same, Value.sameScalar]
  have hfetch := Client.fetch_against (s := s) (h.columnTypes st hst)
  rw [hdecode] at hfetch
  refine (Run.against_ofOutcome_bind hst).trans ?_
  refine (Run.against_bind_ok hfetch).trans ?_
  show (columnsOf (t.columnRows.filter (ofTable t.name))).map Assoc.ofList = .ok t.kinds
  rw [htable, Table.columnRows, columnsOf_columnRows]
  exact congrArg Except.ok (Assoc.ofList_of_nodup Table.nodup_kinds)

theorem coerceFilters_against {r : Request} {filters : List Filter} (h : w.Serves t arrangement)
    (hproject : r.project = t.project) (hcollection : r.collection = t.collection)
    (hcoerce : Filter.coerceAll t.kinds r.filters = .ok filters) :
    (coerceFilters s r).against w = .ok { r with filters } := by
  unfold coerceFilters
  split
  · rename_i hempty
    have hnil := List.isEmpty_iff.mp hempty
    rw [hnil] at hcoerce
    cases hcoerce
    rw [← hnil]
    rfl
  · rw [hproject, hcollection]
    refine (Run.against_bind_ok (columnKinds_against h)).trans ?_
    exact Run.against_ofOutcome_bind hcoerce

end Engine
end EventQuery
