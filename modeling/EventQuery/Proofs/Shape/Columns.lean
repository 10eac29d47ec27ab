import EventQuery.Proofs.Assoc
import EventQuery.Shape
import Mathlib.Algebra.BigOperators.Group.List.Lemmas
import Mathlib.Algebra.GroupWithZero.Nat
import Mathlib.Data.List.Dedup
import Mathlib.Data.List.Forall2
import Mathlib.Data.List.Induction
import Mathlib.Data.List.Perm.Basic

/-!
# EventQuery.Proofs.Shape.Columns

Rows turned into columns. The columns depend only on the fields of all rows in a line, and after any
number of fields there is one column for each name, in the order in which the names first came, with
its values in their order (`columns_eq`). So a column has the values of the rows that have its name,
no value is lost, and rows with the same names are read back across the columns
(`byColumn_lossless`).
-/

namespace EventQuery
namespace Shape

variable {fields : Record} {rows : List Record} {name : String}

/-! ## Fields in a line -/

/-- The names of fields in the order in which they first came. -/
def names (fields : Record) : List String := (fields.map Prod.fst).eraseDups

/-- The values of the fields of a name. -/
def valuesOf (fields : Record) (name : String) : List Value :=
  (fields.filter (·.1 == name)).map Prod.snd

theorem mem_names_iff : name ∈ names fields ↔ name ∈ fields.map Prod.fst := List.mem_eraseDups

theorem names_concat (fields : Record) (name : String) (v : Value) :
    names (fields ++ [(name, v)])
      = if name ∈ names fields then names fields else names fields ++ [name] := by
  simp only [mem_names_iff]
  rw [names, List.map_append, List.map_singleton, List.eraseDups_append, List.removeAll,
    List.filter_singleton]
  by_cases h : name ∈ fields.map Prod.fst
  · rw [if_pos h]
    simp [h, names]
  · rw [if_neg h]
    simp [h, names, List.eraseDups_cons]

theorem nodup_names (fields : Record) : (names fields).Nodup := by
  induction fields using List.reverseRecOn with
  | nil => exact .nil
  | append_singleton fields f ih =>
    rw [names_concat]
    split
    · exact ih
    · rename_i hnew
      exact List.nodup_append.mpr ⟨ih, List.nodup_singleton _, fun a ha b hb hab => by
        rw [List.mem_singleton] at hb
        exact hnew (hb ▸ hab ▸ ha)⟩

theorem valuesOf_concat (fields : Record) (other : String) (v : Value) (name : String) :
    valuesOf (fields ++ [(other, v)]) name
      = if other = name then valuesOf fields name ++ [v] else valuesOf fields name := by
  rw [valuesOf, List.filter_append, List.filter_singleton]
  by_cases h : other = name
  · simp [h, valuesOf]
  · simp [beq_false_of_ne h, if_neg h, valuesOf]

theorem valuesOf_eq_nil (h : name ∉ names fields) : valuesOf fields name = [] := by
  rw [mem_names_iff] at h
  rw [valuesOf, List.map_eq_nil_iff, List.filter_eq_nil_iff]
  intro f hf hname
  exact h (List.mem_map.mpr ⟨f, hf, by simpa using hname⟩)

/-- What happens in the column of another name does not show. -/
theorem map_of_not_mem {names : List String} (h : name ∉ names)
    (values changed : String → List Value) :
    names.map (fun n => (n, if name = n then changed n else values n))
      = names.map fun n => (n, values n) := by
  refine List.map_congr_left fun n hn => ?_
  rw [if_neg]
  rintro rfl
  exact h hn

/-- A value goes to the column of its name, or begins one at the end. -/
theorem push_map {names : List String} (hnodup : names.Nodup) (values : String → List Value)
    (name : String) (v : Value) :
    push name v (names.map fun n => (n, values n))
      = if name ∈ names then names.map fun n => (n, if name = n then values n ++ [v] else values n)
        else (names.map fun n => (n, values n)) ++ [(name, [v])] := by
  induction names with
  | nil => rfl
  | cons n rest ih =>
    obtain ⟨hn, hrest⟩ := List.nodup_cons.mp hnodup
    rw [List.map_cons, List.map_cons, push]
    by_cases h : n = name
    · subst h
      rw [if_pos (by simp), if_pos (by simp), if_pos rfl, map_of_not_mem hn]
    · rw [if_neg (by simpa using h), ih hrest, if_neg (Ne.symm h)]
      by_cases hmem : name ∈ rest
      · rw [if_pos hmem, if_pos (List.mem_cons_of_mem n hmem)]
      · rw [if_neg hmem, if_neg (by simp [hmem, Ne.symm h])]
        rfl

theorem foldl_push (fields : Record) :
    fields.foldl (fun cols (k, v) => push k v cols) []
      = (names fields).map fun n => (n, valuesOf fields n) := by
  -- from the last field: the columns before it are those of the fields before it
  induction fields using List.reverseRecOn with
  | nil => rfl
  | append_singleton fields f ih =>
    obtain ⟨name, v⟩ := f
    rw [List.foldl_concat, ih]
    dsimp only
    rw [push_map (nodup_names fields), names_concat]
    simp only [valuesOf_concat]
    split
    · rfl
    · rename_i hnew
      rw [List.map_append, map_of_not_mem hnew, List.map_singleton, if_pos rfl,
        valuesOf_eq_nil hnew]
      rfl

theorem columns_eq (rows : List Record) :
    columns rows = (names rows.flatten).map fun n => (n, valuesOf rows.flatten n) := by
  rw [← foldl_push, List.foldl_flatten]
  rfl

/-! ## Fields of rows -/

/-- A row with each name once has at most one value of a name, the one that is found. -/
theorem valuesOf_row {row : Record} (h : (row.map Prod.fst).Nodup) (name : String) :
    valuesOf row name = (Record.find? row name).toList := by
  induction row with
  | nil => rfl
  | cons f rest ih =>
    obtain ⟨k, v⟩ := f
    obtain ⟨hk, hrest⟩ := List.nodup_cons.mp h
    rw [valuesOf, List.filter_cons, Record.find?, List.lookup_cons]
    by_cases hname : k = name
    · subst hname
      have hnone : valuesOf rest k = [] := valuesOf_eq_nil fun hmem => hk (mem_names_iff.mp hmem)
      rw [valuesOf] at hnone
      simp [hnone]
    · rw [if_neg (by simpa using hname), beq_false_of_ne (Ne.symm hname)]
      exact ih hrest

theorem valuesOf_flatten (h : ∀ row ∈ rows, (row.map Prod.fst).Nodup) (name : String) :
    valuesOf rows.flatten name = rows.filterMap (Record.find? · name) := by
  induction rows with
  | nil => rfl
  | cons row rest ih =>
    obtain ⟨hrow, hrest⟩ := List.forall_mem_cons.mp h
    have hparts : valuesOf (row ++ rest.flatten) name
        = valuesOf row name ++ valuesOf rest.flatten name := by simp [valuesOf]
    rw [List.flatten_cons, hparts, valuesOf_row hrow, ih hrest, List.filterMap_cons]
    cases Record.find? row name <;> rfl

theorem has_iff {row : Record} : Record.has row name = true ↔ name ∈ row.map Prod.fst := by
  rw [Record.has, Record.find?, List.lookup_isSome_iff, List.mem_map]
  exact exists_congr fun f => and_congr_right fun _ => beq_iff_eq.trans eq_comm

theorem mem_names_flatten_iff :
    name ∈ names rows.flatten ↔ ∃ row ∈ rows, Record.has row name = true := by
  simp only [mem_names_iff, List.map_flatten, List.mem_flatten, List.mem_map, has_iff]
  constructor
  · rintro ⟨_, ⟨row, hrow, rfl⟩, hname⟩
    exact ⟨row, hrow, List.mem_map.mp hname⟩
  · rintro ⟨row, hrow, hname⟩
    exact ⟨_, ⟨row, hrow, rfl⟩, List.mem_map.mpr hname⟩

theorem length_valuesOf (fields : Record) (name : String) :
    (valuesOf fields name).length = (fields.map Prod.fst).count name := by
  rw [valuesOf, List.length_map, ← List.countP_eq_length_filter, List.count, List.countP_map]
  rfl

/-- Each field is in the column of its name. -/
theorem sum_length_valuesOf (fields : Record) :
    ((names fields).map fun n => (valuesOf fields n).length).sum = fields.length := by
  have hperm : (names fields).Perm (fields.map Prod.fst).dedup :=
    (List.perm_ext_iff_of_nodup (nodup_names fields) (List.nodup_dedup _)).mpr fun name => by
      rw [mem_names_iff, List.mem_dedup]
  simp only [length_valuesOf]
  rw [(hperm.map _).sum_eq, List.sum_map_count_dedup_eq_length, List.length_map]

/-! ## Reading across the columns -/

/-- The fields that columns have at a place; none where a column is too short. -/
def rowAt (columns : Value) (place : Nat) : Option Record :=
  match columns with
  | .object fields => fields.mapM fun f =>
    match f.2 with
    | .array values => values[place]?.map (f.1, ·)
    | _ => none
  | _ => none

theorem mapM_some_of_forall {α β : Type} {f : α → Option β} {g : α → β} {xs : List α}
    (h : ∀ x ∈ xs, f x = some (g x)) : xs.mapM f = some (xs.map g) := by
  induction xs with
  | nil => rfl
  | cons x rest ih =>
    obtain ⟨hx, hrest⟩ := List.forall_mem_cons.mp h
    rw [List.mapM_cons, hx, ih hrest]
    rfl

/-- A column that every row has is as long as the rows, one value for each. -/
theorem filterMap_find? (h : ∀ row ∈ rows, Record.has row name = true) :
    rows.filterMap (Record.find? · name) = rows.map (Record.value · name) := by
  rw [← List.filterMap_eq_map]
  refine List.filterMap_congr fun row hrow => ?_
  obtain ⟨v, hv⟩ := Option.isSome_iff_exists.mp (h row hrow)
  simp [Record.value, hv]

/-- The fields of a row in the order of the columns. -/
theorem perm_row {row : Record} (hnodup : (row.map Prod.fst).Nodup) {names : List String}
    (hnames : names.Nodup) (h : ∀ name, name ∈ names ↔ Record.has row name = true) :
    (names.map fun n => (n, Record.value row n)).Perm row := by
  have hback : (names.map fun n => (n, Record.value row n)).Nodup :=
    hnames.map fun m n hmn => (Prod.mk.inj hmn).1
  refine (List.perm_ext_iff_of_nodup hback (.of_map _ hnodup)).mpr fun ⟨name, v⟩ => ?_
  rw [List.mem_map]
  constructor
  · rintro ⟨n, hn, heq⟩
    obtain ⟨rfl, rfl⟩ := Prod.mk.inj heq
    obtain ⟨v, hv⟩ := Option.isSome_iff_exists.mp ((h n).mp hn)
    rw [Record.value, hv]
    exact Assoc.mem_of_lookup hv
  · intro hmem
    have hv : Record.find? row name = some v := Assoc.lookup_of_mem hnodup hmem
    refine ⟨name, (h name).mpr ?_, ?_⟩
    · rw [Record.has, hv, Option.isSome_some]
    · rw [Record.value, hv, Option.getD_some]

theorem byColumn_eq (h : ∀ row ∈ rows, (row.map Prod.fst).Nodup) :
    byColumn rows = .object ((names rows.flatten).map fun n =>
      (n, .array (rows.filterMap (Record.find? · n)))) := by
  simp only [byColumn, columns_eq, List.map_map, Function.comp_def, valuesOf_flatten h]

theorem rowAt_byColumn (h : ∀ row ∈ rows, (row.map Prod.fst).Nodup)
    (hall : ∀ n ∈ names rows.flatten, ∀ row ∈ rows, Record.has row n = true) {place : Nat}
    (hplace : place < rows.length) :
    rowAt (byColumn rows) place
      = some ((names rows.flatten).map fun n => (n, Record.value rows[place] n)) := by
  rw [byColumn_eq h, rowAt, List.mapM_map]
  refine mapM_some_of_forall fun n hn => ?_
  simp only [Function.comp_apply, filterMap_find? (hall n hn), List.getElem?_map,
    List.getElem?_eq_getElem hplace, Option.map_some]

/-- Transposition loses nothing. Each name of a row is a column, the columns being in the order in
which the names first came, and holds the values of the rows that have the name, in their order;
and no value is lost. Rows that all have the same names come back, in order, from reading across the
columns, each row with the fields it had. -/
theorem byColumn_lossless (rows : List Record) (h : ∀ row ∈ rows, (row.map Prod.fst).Nodup) :
    (byColumn rows = .object ((names rows.flatten).map fun n =>
        (n, .array (rows.filterMap (Record.find? · n)))) ∧
      (names rows.flatten).Nodup ∧
      (∀ name, name ∈ names rows.flatten ↔ ∃ row ∈ rows, Record.has row name = true) ∧
      ((names rows.flatten).map fun n => (rows.filterMap (Record.find? · n)).length).sum
        = (rows.map List.length).sum) ∧
    ((∀ row ∈ rows, ∀ row' ∈ rows, ∀ name, Record.has row name = Record.has row' name) →
      ∃ back, (List.range rows.length).map (rowAt (byColumn rows)) = back.map some ∧
        List.Forall₂ List.Perm back rows) := by
  refine ⟨⟨byColumn_eq h, nodup_names _, fun _ => mem_names_flatten_iff, ?_⟩, fun hsame => ?_⟩
  · have hsum := sum_length_valuesOf rows.flatten
    simp only [valuesOf_flatten h] at hsum
    rw [hsum, List.length_flatten]
  · have hnames : ∀ row ∈ rows, ∀ n, n ∈ names rows.flatten ↔ Record.has row n = true := by
      intro row hrow n
      rw [mem_names_flatten_iff]
      refine ⟨?_, fun hn => ⟨row, hrow, hn⟩⟩
      rintro ⟨other, hother, hn⟩
      rw [hsame row hrow other hother, hn]
    refine ⟨rows.map fun row => (names rows.flatten).map fun n => (n, Record.value row n), ?_, ?_⟩
    · refine List.ext_getElem (by simp) fun place hleft hright => ?_
      have hplace : place < rows.length := by simpa using hleft
      simp only [List.getElem_map, List.getElem_range]
      exact rowAt_byColumn h (fun n hn row hrow => (hnames row hrow n).mp hn) hplace
    · refine List.forall₂_map_left_iff.mpr (List.forall₂_same.mpr fun row hrow => ?_)
      exact perm_row (h row hrow) (nodup_names _) (hnames row hrow)

/-- Two rows with the same names in two orders. -/
def twoReadings : List Record :=
  [[("device", .text "a"), ("voltage", .int 1)], [("voltage", .null), ("device", .text "b")]]

theorem byColumn_lossless_twoReadings :
    (∀ row ∈ twoReadings, (row.map Prod.fst).Nodup) ∧
      (∀ row ∈ twoReadings, ∀ row' ∈ twoReadings, ∀ name,
        Record.has row name = Record.has row' name) ∧
      byColumn twoReadings = .object
        [("device", .array [.text "a", .text "b"]), ("voltage", .array [.int 1, .null])] ∧
      ∃ back, (List.range 2).map (rowAt (byColumn twoReadings)) = back.map some ∧
        List.Forall₂ List.Perm back twoReadings := by
  have hnodup : ∀ row ∈ twoReadings, (row.map Prod.fst).Nodup := by decide
  have hhas : ∀ row ∈ twoReadings, ∀ name,
      Record.has row name = true ↔ name ∈ ["device", "voltage"] := by
    intro row hrow name
    rw [has_iff]
    revert row
    simp [twoReadings, -List.mem_map, or_comm]
  have hsame : ∀ row ∈ twoReadings, ∀ row' ∈ twoReadings, ∀ name,
      Record.has row name = Record.has row' name := fun row hrow row' hrow' name =>
    Bool.eq_iff_iff.mpr ((hhas row hrow name).trans (hhas row' hrow' name).symm)
  exact ⟨hnodup, hsame, rfl, (byColumn_lossless twoReadings hnodup).2 hsame⟩

end Shape
end EventQuery
