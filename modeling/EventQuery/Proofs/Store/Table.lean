import EventQuery.Backend.Client
import EventQuery.Engine
import EventQuery.Proofs.Assoc
import EventQuery.Proofs.Filter.Agreement

/-!
# EventQuery.Proofs.Store.Table

Tables of events with columns of known kinds. A row has a field for each column, in the order of
the columns, and a field holds null or a value of the kind of its column (`Table.typed`). So what
is found in a row is of the kind that the columns are listed with (`Table.kind_of_find?`), and the
values of a row, and of parts of it, come out of the store as they are (`decodeRecord_part`).
-/

namespace EventQuery

structure Column where
  name : String
  dataType : String

namespace Column

def kind (c : Column) : ColumnKind := .ofDataType (some c.dataType)

/-- Whether a field is one of a column: null, or a value of its kind. -/
def Holds (c : Column) (field : String × Value) : Prop :=
  field.1 = c.name ∧ (field.2 = .null ∨ c.kind.Has field.2)

end Column

/-- The table of a collection of a project. -/
structure Table where
  project : String
  collection : String
  columns : List Column
  rows : List Record
  isFlat_project : Name.isFlat project = true
  isFlat_collection : Name.isFlat collection = true
  nodup : (columns.map Column.name).Nodup
  kind_ne_other : ∀ c ∈ columns, c.kind ≠ .other
  /-- There is a column that dates the events. -/
  dated : (Name.timestampColumn, ColumnKind.timestamp) ∈ columns.map fun c => (c.name, c.kind)
  typed : ∀ row ∈ rows, List.Forall₂ Column.Holds columns row

namespace Table

def name (t : Table) : String := Name.tableName t.project t.collection

/-- The kinds of the columns, by name. -/
def kinds (t : Table) : List (String × ColumnKind) := t.columns.map fun c => (c.name, c.kind)

variable {t : Table} {row : Record} {name : String} {u : Value}

theorem nodup_kinds : (t.kinds.map Prod.fst).Nodup := by
  have hnames : t.kinds.map Prod.fst = t.columns.map Column.name := by simp [kinds]
  rw [hnames]
  exact t.nodup

/-- Filters are read in the kinds of the columns, that of the dates among them. -/
theorem kindFor_kinds (name : String) : Filter.kindFor t.kinds name = t.kinds.lookup name := by
  unfold Filter.kindFor
  split
  · rename_i hname
    rw [beq_iff_eq] at hname
    subst hname
    exact (Assoc.lookup_of_mem nodup_kinds t.dated).symm
  · rfl

theorem exists_kind {name : String} (h : name ∈ t.columns.map Column.name) :
    ∃ k, Filter.kindFor t.kinds name = some k ∧ k ≠ .other := by
  obtain ⟨c, hc, rfl⟩ := List.mem_map.mp h
  have hmem : (c.name, c.kind) ∈ t.kinds := List.mem_map_of_mem hc
  have hkind := (kindFor_kinds c.name).trans (Assoc.lookup_of_mem nodup_kinds hmem)
  exact ⟨c.kind, hkind, t.kind_ne_other c hc⟩

theorem lookup_fields {columns : List Column} (name : String)
    (h : List.Forall₂ Column.Holds columns row) :
    Record.find? row name = none ∧
        (columns.map fun c => (c.name, c.kind)).lookup name = none ∨
      ∃ c ∈ columns, ∃ u, Record.find? row name = some u ∧
        (columns.map fun c => (c.name, c.kind)).lookup name = some c.kind ∧
        (u = .null ∨ c.kind.Has u) := by
  -- a field has the name of its column, so both lookups go on or stop together
  induction h with
  | nil => exact .inl ⟨rfl, rfl⟩
  | @cons c field columns row hfield _ ih =>
    obtain ⟨key, v⟩ := field
    obtain ⟨hkey, hv⟩ := hfield
    dsimp only at hkey hv
    subst hkey
    unfold Record.find? at ih ⊢
    rw [List.map_cons, List.lookup_cons, List.lookup_cons]
    cases hname : name == c.name with
    | true => exact .inr ⟨c, by simp, v, rfl, rfl, hv⟩
    | false =>
      refine ih.imp_right ?_
      rintro ⟨d, hd, u, hu⟩
      exact ⟨d, List.mem_cons_of_mem c hd, u, hu⟩

/-- What is found in a row is null or of the kind that the column is listed with. -/
theorem kind_of_find? (hrow : row ∈ t.rows) (h : Record.find? row name = some u) :
    ∃ k, Filter.kindFor t.kinds name = some k ∧ k ≠ .other ∧ (u = .null ∨ k.Has u) := by
  rcases lookup_fields name (t.typed row hrow) with ⟨hnone, _⟩ | ⟨c, hc, v, hv, hkind, hu⟩
  · rw [hnone] at h
    cases h
  · cases hv.symm.trans h
    exact ⟨c.kind, (kindFor_kinds name).trans hkind, t.kind_ne_other c hc, hu⟩

theorem find?_of_mem_columns (hrow : row ∈ t.rows) (h : name ∈ t.columns.map Column.name) :
    ∃ u, Record.find? row name = some u := by
  rcases lookup_fields name (t.typed row hrow) with ⟨_, hnone⟩ | ⟨_, _, u, hu, _⟩
  · rw [List.lookup_eq_none_iff] at hnone
    obtain ⟨c, hc, rfl⟩ := List.mem_map.mp h
    have hne := hnone (c.name, c.kind) (List.mem_map_of_mem hc)
    simp at hne
  · exact ⟨u, hu⟩

end Table

/-! ## Parts of rows -/

/-- The fields of a row under some names, in the order of the names, or the whole row. A field that
is not there reads as null. -/
def Record.part (names : Option (List String)) (row : Record) : Record :=
  match names with
  | none => row
  | some names => Assoc.ofList (names.map fun name => (name, Record.value row name))

namespace Assoc

variable {α : Type} {f : String → α}

/-- Names with a value each, after some that are there. -/
theorem lookup_foldl_set (names : List String) (xs : List (String × α)) {name : String} {x : α}
    (h : (names.foldl (fun r n => set n (f n) r) xs).lookup name = some x) :
    x = f name ∨ xs.lookup name = some x := by
  induction names generalizing xs with
  | nil => exact .inr h
  | cons n names ih =>
    rcases ih _ h with hx | hx
    · exact .inl hx
    · by_cases hn : name = n
      · subst hn
        rw [lookup_set_self] at hx
        cases hx
        exact .inl rfl
      · rw [lookup_set_of_ne hn] at hx
        exact .inr hx

theorem mem_set {key : String} {v : α} {xs : List (String × α)} {y : String × α}
    (h : y ∈ set key v xs) : y.2 = v ∨ y ∈ xs := by
  induction xs with
  | nil =>
    rw [List.mem_singleton.mp h]
    exact .inl rfl
  | cons z rest ih =>
    rw [set] at h
    split at h
    · rcases List.mem_cons.mp h with rfl | h
      · exact .inl rfl
      · exact .inr (List.mem_cons_of_mem _ h)
    · rcases List.mem_cons.mp h with rfl | h
      · exact .inr (by simp)
      · exact (ih h).imp_right (List.mem_cons_of_mem _)

theorem mem_foldl_set (names : List String) (xs : List (String × α)) {y : String × α}
    (h : y ∈ names.foldl (fun r n => set n (f n) r) xs) : (∃ n, y.2 = f n) ∨ y ∈ xs := by
  induction names generalizing xs with
  | nil => exact .inr h
  | cons n names ih =>
    rcases ih _ h with hy | hy
    · exact .inl hy
    · rcases mem_set hy with hy | hy
      · exact .inl ⟨n, hy⟩
      · exact .inr hy

theorem ofList_map (names : List String) :
    ofList (names.map fun n => (n, f n)) = names.foldl (fun r n => set n (f n) r) [] := by
  rw [ofList, List.foldl_map]

end Assoc

namespace Record

variable {row : Record} {names : Option (List String)}

/-- What is found in a part of a row is what the row has there. -/
theorem eq_value_of_find?_part {name : String} {u : Value}
    (h : Record.find? (Record.part names row) name = some u) : u = Record.value row name := by
  cases names with
  | none =>
    rw [Record.value]
    have hrow : Record.find? row name = some u := h
    rw [hrow]
    rfl
  | some names =>
    rw [part, Assoc.ofList_map] at h
    rcases Assoc.lookup_foldl_set names [] h with hu | hu
    · exact hu
    · cases hu

theorem mem_part {x : String × Value} (h : x ∈ Record.part names row) :
    x ∈ row ∨ ∃ name, x.2 = Record.value row name := by
  cases names with
  | none => exact .inl h
  | some names =>
    rw [part, Assoc.ofList_map] at h
    rcases Assoc.mem_foldl_set names [] h with hx | hx
    · exact .inr hx
    · cases hx

end Record

/-- No value of a kind is a decimal or an array. -/
theorem Client.decode_of_has {k : ColumnKind} {v : Value} (h : v = .null ∨ k.Has v) :
    decode v = v := by
  rcases h with rfl | ⟨a, ha⟩
  · rfl
  · cases v with
    | decimal d => cases k <;> cases ha
    | array items => cases k <;> cases ha
    | _ => rfl

namespace Table

variable {t : Table} {row : Record}

theorem decode_field {columns : List Column} (h : List.Forall₂ Column.Holds columns row) :
    ∀ x ∈ row, Client.decode x.2 = x.2 := by
  induction h with
  | nil => simp
  | cons hfirst _ ih =>
    rw [List.forall_mem_cons]
    exact ⟨Client.decode_of_has hfirst.2, ih⟩

theorem decodeRecord_part (hrow : row ∈ t.rows) (names : Option (List String)) :
    Client.decodeRecord (Record.part names row) = Record.part names row := by
  have hpart : ∀ x ∈ Record.part names row, (x.1, Client.decode x.2) = x := by
    intro x hx
    have hdecode : Client.decode x.2 = x.2 := by
      rcases Record.mem_part hx with hmem | ⟨name, hvalue⟩
      · exact decode_field (t.typed row hrow) x hmem
      · rw [hvalue, Record.value]
        cases hu : Record.find? row name with
        | none => rfl
        | some u =>
          obtain ⟨k, _, _, hk⟩ := kind_of_find? hrow hu
          exact Client.decode_of_has hk
    rw [hdecode]
  unfold Client.decodeRecord
  exact (List.map_congr_left hpart).trans (List.map_id _)

end Table
end EventQuery
