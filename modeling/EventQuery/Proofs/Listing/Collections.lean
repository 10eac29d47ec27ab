import EventQuery.Listing
import EventQuery.Proofs.Assoc
import EventQuery.Proofs.Name.Isolation
import EventQuery.Proofs.Run.World
import EventQuery.Proofs.Statement.Pattern
import EventQuery.Proofs.Statement.Source
import EventQuery.Proofs.Value.Plain
import Mathlib.Data.List.Forall2

/-!
# EventQuery.Proofs.Listing.Collections

The listing of a project's collections. Each row of the schema adds a column to the collection that
its table holds, or nothing when the table is of another project or the column is hidden
(`Lists.add`, `Lists.skip`), so after all rows each collection has its columns in the order of the
rows (`exists_ofRowsFrom`). A table is of one project only, whatever follows the first underscore,
and so rows of other projects may as well be left out (`ofRowsFrom_kept`). `lists_own` says this of
the listing that a caller gets, next to which tables the statement asks for.
-/

namespace EventQuery
namespace Listing

open Outcome

/-- A column of a table, as the schema of the store has it. -/
structure SchemaColumn where
  table : String
  name : String
  type : Option String

namespace SchemaColumn

def info (x : SchemaColumn) : ColumnInfo := ⟨x.name, x.type⟩

/-- A column of a collection that is not hidden. -/
def IsOf (project collection : String) (x : SchemaColumn) : Prop :=
  x.table = Name.tableName project collection ∧ x.name ∉ hiddenColumns

instance (project collection : String) : DecidablePred (IsOf project collection) :=
  fun x => inferInstanceAs (Decidable (x.table = _ ∧ x.name ∉ hiddenColumns))

/-- A column of a table of another project. -/
def IsForeign (project : String) (x : SchemaColumn) : Prop :=
  ∃ other collection, Name.isFlat other = true ∧ other ≠ project ∧
    x.table = Name.tableName other collection

end SchemaColumn

/-- A row that tells of a column. A type that is not there is the same as null. -/
structure Describes (x : SchemaColumn) (row : Record) : Prop where
  table : Record.find? row "table_name" = some (.text x.table)
  name : Record.find? row "column_name" = some (.text x.name)
  type : Record.value row "data_type" = .ofText? x.type

/-- The columns of a collection, in their order. -/
def columnsOf (project collection : String) (xs : List SchemaColumn) : List ColumnInfo :=
  (xs.filter (·.IsOf project collection)).map (·.info)

/-- A listing with the collections of a project, each once and with all its columns. -/
structure Lists (project : String) (xs : List SchemaColumn)
    (listing : List (String × List ColumnInfo)) : Prop where
  nodup : (listing.map Prod.fst).Nodup
  mem_names : ∀ c, c ∈ listing.map Prod.fst ↔ ∃ x ∈ xs, x.IsOf project c
  columns : ∀ c columns, (c, columns) ∈ listing → columns = columnsOf project c xs

variable {project c c' table : String} {x : SchemaColumn} {xs seen : List SchemaColumn}
  {row : Record} {rows : List Record} {column : ColumnInfo}
  {listing : List (String × List ColumnInfo)}

/-! ## Owners of tables -/

theorem collectionOf_tableName (project c : String) :
    collectionOf project (Name.tableName project c) = some c := by
  have hstart : (Name.tableName project "").toList ++ c.toList
      = (Name.tableName project c).toList := by simp [Name.tableName]
  rw [collectionOf, ← hstart, List.drop_left, String.ofList_toList, if_pos]
  rw [List.isPrefixOf_iff_prefix]
  exact List.prefix_append _ _

theorem isSome_collectionOf_iff :
    (collectionOf project table).isSome ↔
      (Name.tableName project "").toList <+: table.toList := by
  rw [collectionOf, ← List.isPrefixOf_iff_prefix]
  split <;> simp_all

theorem collectionOf_eq_some_iff :
    collectionOf project table = some c ↔ table = Name.tableName project c := by
  constructor
  · intro h
    obtain ⟨rest, hrest⟩ := isSome_collectionOf_iff.mp (Option.isSome_of_eq_some h)
    have htable : table = Name.tableName project (String.ofList rest) := by
      refine String.toList_inj.mp ?_
      rw [← hrest]
      simp [Name.tableName]
    rw [htable, collectionOf_tableName] at h
    rw [htable, Option.some.inj h]
  · rintro rfl
    exact collectionOf_tableName project c

theorem SchemaColumn.IsForeign.not_isOf (hp : Name.isFlat project = true)
    (h : x.IsForeign project) : ¬x.IsOf project c := by
  obtain ⟨other, collection, hother, hne, htable⟩ := h
  intro hx
  exact hne (Name.project_eq_of_tableName_eq hother hp (htable.symm.trans hx.1))

/-! ## Rows -/

theorem tableField_of_describes (h : Describes x row) : tableField row = .ok x.table := by
  rw [tableField, h.table]

theorem columnField_of_describes (h : Describes x row) : columnField row = .ok x.name := by
  rw [columnField, h.name]

theorem typeField_of_describes (h : Describes x row) : typeField row = .ok x.type := by
  rw [typeField, h.type]
  cases x.type <;> rfl

theorem ofRow_of_isOf (hrow : Describes x row) (h : x.IsOf project c) :
    ofRow project row = .ok (some (c, x.info)) := by
  have hshown : hiddenColumns.contains x.name = false := by simpa using h.2
  rw [ofRow, tableField_of_describes hrow, ok_bind, collectionOf_eq_some_iff.mpr h.1]
  dsimp only
  rw [columnField_of_describes hrow, ok_bind, hshown, typeField_of_describes hrow]
  rfl

theorem ofRow_of_not_isOf (hrow : Describes x row) (h : ∀ c, ¬x.IsOf project c) :
    ofRow project row = .ok none := by
  rw [ofRow, tableField_of_describes hrow, ok_bind]
  cases hcollection : collectionOf project x.table with
  | none => rfl
  | some c =>
    have hhidden : hiddenColumns.contains x.name = true := by
      rw [collectionOf_eq_some_iff] at hcollection
      simpa [SchemaColumn.IsOf, hcollection] using h c
    dsimp only
    rw [columnField_of_describes hrow, ok_bind, hhidden]
    rfl

/-- What the store decodes tells of the same column. -/
theorem Describes.decodeRecord (h : Describes x row) : Describes x (Client.decodeRecord row) := by
  refine ⟨?_, ?_, ?_⟩
  · rw [Client.find?_decodeRecord, h.table]
    rfl
  · rw [Client.find?_decodeRecord, h.name]
    rfl
  · have htype := h.type
    rw [Record.value] at htype ⊢
    rw [Client.find?_decodeRecord]
    cases hfind : Record.find? row "data_type" with
    | none =>
      rw [hfind] at htype
      exact htype
    | some v =>
      rw [hfind, Option.getD_some] at htype
      subst htype
      cases x.type <;> rfl

/-! ## One column more -/

theorem lookup_add (c c' : String) (column : ColumnInfo) (listing) :
    (add c column listing).lookup c' =
      if c' = c then some ((listing.lookup c).getD [] ++ [column]) else listing.lookup c' := by
  induction listing with
  | nil =>
    by_cases h : c' = c
    · simp [add, h]
    · simp [add, h, List.lookup_cons, beq_false_of_ne h]
  | cons entry rest ih =>
    obtain ⟨name, columns⟩ := entry
    rw [add]
    by_cases hname : name = c
    · subst hname
      by_cases h : c' = name
      · simp [h]
      · simp [h, List.lookup_cons, beq_false_of_ne h]
    · rw [if_neg (by simpa using hname), List.lookup_cons, ih]
      by_cases h : c' = c
      · subst h
        simp [List.lookup_cons, beq_false_of_ne (Ne.symm hname)]
      · simp [h, List.lookup_cons]

theorem names_add (c : String) (column : ColumnInfo) (listing) :
    (add c column listing).map Prod.fst =
      if c ∈ listing.map Prod.fst then listing.map Prod.fst else listing.map Prod.fst ++ [c] := by
  induction listing with
  | nil => rfl
  | cons entry rest ih =>
    obtain ⟨name, columns⟩ := entry
    rw [add]
    by_cases hname : name = c
    · subst hname
      simp
    · rw [if_neg (by simpa using hname), List.map_cons, List.map_cons, ih]
      by_cases h : c ∈ rest.map Prod.fst
      · rw [if_pos h, if_pos (List.mem_cons_of_mem _ h)]
      · rw [if_neg h, if_neg (List.not_mem_cons_of_ne_of_not_mem (Ne.symm hname) h)]
        rfl

theorem nodup_names_add (h : (listing.map Prod.fst).Nodup) :
    ((add c column listing).map Prod.fst).Nodup := by
  rw [names_add]
  split
  · exact h
  · rename_i hnew
    exact List.nodup_append_comm.mpr (List.nodup_cons.mpr ⟨hnew, h⟩)

theorem mem_names_add :
    c' ∈ (add c column listing).map Prod.fst ↔ c' = c ∨ c' ∈ listing.map Prod.fst := by
  rw [names_add]
  split
  · rename_i hold
    refine ⟨.inr, ?_⟩
    rintro (rfl | h)
    · exact hold
    · exact h
  · rw [List.mem_append, List.mem_singleton, or_comm]

theorem SchemaColumn.IsOf.iff_eq (h : x.IsOf project c) : x.IsOf project c' ↔ c' = c := by
  refine ⟨fun h' => ?_, fun hc => hc ▸ h⟩
  have hsome := collectionOf_eq_some_iff.mpr h.1
  rw [collectionOf_eq_some_iff.mpr h'.1] at hsome
  exact Option.some.inj hsome

theorem columnsOf_concat (project c : String) (xs : List SchemaColumn) (x : SchemaColumn) :
    columnsOf project c (xs ++ [x]) =
      if x.IsOf project c then columnsOf project c xs ++ [x.info] else columnsOf project c xs := by
  rw [columnsOf, List.filter_append, List.filter_singleton]
  by_cases h : x.IsOf project c <;> simp [h, columnsOf]

theorem columnsOf_eq_nil (h : ∀ x ∈ xs, ¬x.IsOf project c) : columnsOf project c xs = [] := by
  rw [columnsOf, List.filter_eq_nil_iff.mpr (by simpa using h)]
  rfl

theorem lists_nil (project : String) : Lists project [] [] :=
  ⟨.nil, by simp, by simp⟩

theorem Lists.getD_lookup (h : Lists project seen listing) (c : String) :
    (listing.lookup c).getD [] = columnsOf project c seen := by
  cases hfind : listing.lookup c with
  | some columns => exact h.columns c columns (Assoc.mem_of_lookup hfind)
  | none =>
    rw [List.lookup_eq_none_iff] at hfind
    refine (columnsOf_eq_nil fun x hx hof => ?_).symm
    obtain ⟨entry, hentry, rfl⟩ := List.mem_map.mp ((h.mem_names c).mpr ⟨x, hx, hof⟩)
    simpa using hfind entry hentry

theorem Lists.add (h : Lists project seen listing) (hx : x.IsOf project c) :
    Lists project (seen ++ [x]) (add c x.info listing) := by
  have hnodup : ((Listing.add c x.info listing).map Prod.fst).Nodup := nodup_names_add h.nodup
  refine ⟨hnodup, fun c' => ?_, fun c' columns hmem => ?_⟩
  · rw [mem_names_add, h.mem_names, ← hx.iff_eq]
    simp [or_and_right, exists_or, or_comm]
  · have hfind := Assoc.lookup_of_mem hnodup hmem
    rw [lookup_add] at hfind
    rw [columnsOf_concat, ← h.getD_lookup]
    by_cases hc : c' = c
    · subst hc
      rw [if_pos rfl] at hfind
      rw [if_pos hx]
      exact (Option.some.inj hfind).symm
    · rw [if_neg hc] at hfind
      rw [if_neg (mt hx.iff_eq.mp hc), hfind]
      rfl

theorem Lists.skip (h : Lists project seen listing) (hx : ∀ c, ¬x.IsOf project c) :
    Lists project (seen ++ [x]) listing := by
  refine ⟨h.nodup, fun c => ?_, fun c columns hmem => ?_⟩
  · rw [h.mem_names]
    simp [or_and_right, exists_or, hx c]
  · rw [columnsOf_concat, if_neg (hx c)]
    exact h.columns c columns hmem

/-! ## All rows -/

theorem exists_ofRowsFrom (h : Lists project seen listing)
    (hrows : List.Forall₂ Describes xs rows) :
    ∃ all, ofRowsFrom project listing rows = .ok all ∧ Lists project (seen ++ xs) all := by
  induction hrows generalizing seen listing with
  | nil => exact ⟨listing, rfl, by rwa [List.append_nil]⟩
  | @cons x row xs rows hrow _ ih =>
    rw [List.append_cons, ofRowsFrom]
    by_cases hx : ∃ c, x.IsOf project c
    · obtain ⟨c, hx⟩ := hx
      rw [ofRow_of_isOf hrow hx]
      exact ih (h.add hx)
    · rw [ofRow_of_not_isOf hrow (not_exists.mp hx)]
      exact ih (h.skip (not_exists.mp hx))

theorem exists_ofRows (project : String) (hrows : List.Forall₂ Describes xs rows) :
    ∃ listing, ofRows project rows = .ok listing ∧ Lists project xs listing :=
  exists_ofRowsFrom (lists_nil project) hrows

/-- Rows that tell of the same column are listed alike. -/
theorem ofRow_congr {row' : Record} (h : Describes x row) (h' : Describes x row') :
    ofRow project row = ofRow project row' := by
  by_cases hx : ∃ c, x.IsOf project c
  · obtain ⟨c, hx⟩ := hx
    rw [ofRow_of_isOf h hx, ofRow_of_isOf h' hx]
  · rw [ofRow_of_not_isOf h (not_exists.mp hx), ofRow_of_not_isOf h' (not_exists.mp hx)]

/-- Rows that add nothing may be left out. -/
theorem ofRowsFrom_kept {keeps : SchemaColumn → Bool} {kept : List Record}
    (hleft : ∀ x ∈ xs, keeps x = false → ∀ c, ¬x.IsOf project c)
    (hrows : List.Forall₂ Describes xs rows)
    (hkept : List.Forall₂ Describes (xs.filter keeps) kept) :
    ofRowsFrom project listing kept = ofRowsFrom project listing rows := by
  induction hrows generalizing listing kept with
  | nil =>
    cases hkept
    rfl
  | @cons x row xs rows hrow _ ih =>
    rw [List.forall_mem_cons] at hleft
    cases hx : keeps x with
    | true =>
      rw [List.filter_cons_of_pos hx] at hkept
      cases hkept with
      | @cons _ row' _ kept hrow' hkept =>
        rw [ofRowsFrom, ofRowsFrom, ofRow_congr hrow' hrow]
        cases ofRow project row with
        | error e => rfl
        | ok added =>
          cases added with
          | none => exact ih hleft.2 hkept
          | some entry => exact ih hleft.2 hkept
    | false =>
      rw [List.filter_cons_of_neg (by simp [hx])] at hkept
      rw [ofRowsFrom, ofRow_of_not_isOf hrow (hleft.1 hx)]
      exact ih hleft.2 hkept

/-- A listing for a caller who is let in, from the rows of the store. -/
theorem list_against {s : Settings} {masterKey : Option String} {pr : Project} {w : World}
    {st : Statement} (henter : (Project.enterAsMaster s project masterKey).against w = .ok pr)
    (hst : Statement.collections (.text project) = .ok st) (hrows : w.statement st = .ok rows) :
    (list s project masterKey).against w = ofRows project (rows.map Client.decodeRecord) := by
  refine (Run.against_discard_bind henter).trans ?_
  refine (Run.against_ofOutcome_bind hst).trans ?_
  exact Run.against_bind_ok (Client.fetch_against hrows)

theorem forall₂_decodeRecord (hrows : List.Forall₂ Describes xs rows) :
    List.Forall₂ Describes xs (rows.map Client.decodeRecord) := by
  rw [List.forall₂_map_right_iff]
  exact hrows.imp fun _ _ h => h.decodeRecord

/-- The listing has the collections of a project with all their columns, no row of another
project's table changes it, and the statement asks for just those tables that count as the
project's. -/
theorem lists_own (project : String) (xs : List SchemaColumn) (rows : List Record)
    (hp : Name.isFlat project = true) (hrows : List.Forall₂ Describes xs rows) :
    ∃ st pattern listing, Statement.collections (.text project) = .ok st ∧
      [.word "LIKE", .place "1"] <:+: Token.ofText st.sql ∧ st.params = [.text pattern] ∧
      ofRows project rows = .ok listing ∧ Lists project xs listing ∧
      (∀ (s : Settings) masterKey pr (w : World),
        (Project.enterAsMaster s project masterKey).against w = .ok pr →
        w.statement st = .ok rows → (list s project masterKey).against w = .ok listing) ∧
      (∀ (keeps : SchemaColumn → Bool) (kept : List Record),
        (∀ x ∈ xs, keeps x = false → x.IsForeign project) →
        List.Forall₂ Describes (xs.filter keeps) kept → ofRows project kept = .ok listing) ∧
      ∀ table : String,
        (Statement.Matches pattern.toList table.toList ↔
          (Name.tableName project "").toList <+: table.toList) ∧
        ((collectionOf project table).isSome ↔
          (Name.tableName project "").toList <+: table.toList) := by
  obtain ⟨listing, hlisting, hlists⟩ := exists_ofRows project hrows
  obtain ⟨st, hst⟩ : ∃ st, Statement.collections (.text project) = .ok st := by
    rw [Statement.collections, Name.flat_of_isFlat _ hp]
    exact ⟨_, rfl⟩
  obtain ⟨_, hproject, hparams, htokens⟩ := Statement.ofText_collections hst
  cases hproject
  refine ⟨st, Statement.tablePattern project, listing, hst, ?like, hparams, hlisting, hlists,
    ?run, ?others, fun table => ⟨Statement.matches_tablePattern hp, isSome_collectionOf_iff⟩⟩
  case like =>
    rw [htokens]
    exact ⟨Statement.columnListTokens, [.word "ORDER", .word "BY", .word "table_name", .mark ',',
      .word "ordinal_position"], by simp⟩
  case run =>
    intro s masterKey pr w henter hanswer
    rw [list_against henter hst hanswer, ← hlisting]
    have hdecoded : List.Forall₂ Describes (xs.filter fun _ => true)
        (rows.map Client.decodeRecord) := by
      rw [List.filter_true]
      exact forall₂_decodeRecord hrows
    exact ofRowsFrom_kept (by simp) hrows hdecoded
  case others =>
    intro keeps kept hforeign hkept
    rw [← hlisting]
    exact ofRowsFrom_kept (fun x hx hleft c => (hforeign x hx hleft).not_isOf hp) hrows hkept

/-- A row of the schema. -/
def rowOf (x : SchemaColumn) : Record :=
  [("table_name", .text x.table), ("column_name", .text x.name), ("data_type", .ofText? x.type)]

theorem forall₂_rowOf (xs : List SchemaColumn) : List.Forall₂ Describes xs (xs.map rowOf) := by
  rw [List.forall₂_map_right_iff]
  exact List.forall₂_same.mpr fun x _ => ⟨rfl, rfl, rfl⟩

/-- A table of a project, one of whose columns is hidden, and a table of a project with a longer
name. -/
def neighbours : List SchemaColumn :=
  [⟨"p1_measurements", "voltage", some "FLOAT8"⟩, ⟨"p1_measurements", "rowid", some "INT8"⟩,
    ⟨"p10_other", "x", none⟩, ⟨"p1_measurements", "cenote$timestamp", some "TIMESTAMPTZ"⟩]

theorem lists_own_neighbours :
    Name.isFlat "p1" = true ∧
      ofRows "p1" (neighbours.map rowOf) = .ok [("measurements",
        [⟨"voltage", some "FLOAT8"⟩, ⟨"cenote$timestamp", some "TIMESTAMPTZ"⟩])] ∧
      ofRows "p1" ((neighbours.filter (·.table != "p10_other")).map rowOf)
        = ofRows "p1" (neighbours.map rowOf) ∧
      ¬Statement.Matches (Statement.tablePattern "p1").toList "p10_other".toList := by
  have hp : Name.isFlat "p1" = true := by decide
  obtain ⟨st, pattern, listing, hst, -, hparams, hlisting, hlists, -, hothers, htables⟩ :=
    lists_own "p1" neighbours (neighbours.map rowOf) hp (forall₂_rowOf _)
  have hforeign : ∀ x ∈ neighbours, (x.table != "p10_other") = false → x.IsForeign "p1" := by
    intro x _ hx
    have htable : x.table = "p10_other" := by simpa using hx
    exact ⟨"p10", "other", by decide, by decide, htable⟩
  have hlisted : ofRows "p1" (neighbours.map rowOf) = .ok [("measurements",
      [⟨"voltage", some "FLOAT8"⟩, ⟨"cenote$timestamp", some "TIMESTAMPTZ"⟩])] := rfl
  have hkept := hothers _ _ hforeign (forall₂_rowOf _)
  refine ⟨hp, hlisted, hkept.trans hlisting.symm, ?_⟩
  cases hst
  cases hparams
  rw [(htables "p10_other").1]
  decide

end Listing
end EventQuery
