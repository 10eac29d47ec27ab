import EventQuery.Proofs.Reduction.Distinct
import Mathlib.Algebra.GroupWithZero.Nat
import Mathlib.Data.List.Pairwise
import Mathlib.Data.List.Perm.Basic

/-!
# EventQuery.Proofs.Reduction.GroupRows

The rows of groups. A group begins with a row that has its key (`begins_partition`). Where no key
holds NaN, the group of a key has the rows whose values equal it, in their order
(`partition_eq_rowsOf`), so that each row is in one group, and two rows share theirs if and only if
their values are equal (`groups_by_value_iff`). The row that a group gives is labelled with its key
unless the result has the name of the column (`labelled_iff`).
-/

namespace EventQuery
namespace Group

open Reduction

variable {column name : String} {rows : List Record} {groups : List Group}

/-! ## The first row -/

/-- A group begins with a row that has its key. -/
def Begins (column : String) (g : Group) : Prop :=
  ∃ first rest, g.rows = first :: rest ∧ g.key = Record.value first column

theorem begins_add {row : Record} (h : ∀ g ∈ groups, Begins column g) :
    ∀ g ∈ add (Record.value row column) row groups, Begins column g := by
  induction groups with
  | nil =>
    intro g hg
    rw [add, List.mem_singleton] at hg
    subst hg
    exact ⟨row, [], rfl, rfl⟩
  | cons c rest ih =>
    obtain ⟨hc, hrest⟩ := List.forall_mem_cons.mp h
    rw [add]
    split
    · obtain ⟨first, others, hrows, hkey⟩ := hc
      refine List.forall_mem_cons.mpr ⟨⟨first, others ++ [row], ?_, hkey⟩, hrest⟩
      rw [hrows]
      rfl
    · exact List.forall_mem_cons.mpr ⟨hc, ih hrest⟩

theorem begins_partition (rows : List Record) (column : String) :
    ∀ g ∈ partition rows column, Begins column g := by
  induction rows using List.reverseRecOn with
  | nil => exact List.forall_mem_nil _
  | append_singleton rows row ih =>
    rw [partition_concat]
    exact begins_add ih

/-! ## The rows of a key -/

/-- The rows whose values equal a key. -/
def rowsOf (column : String) (rows : List Record) (key : Value) : List Record :=
  rows.filter fun row => key.same (Record.value row column)

theorem rowsOf_concat (column : String) (rows : List Record) (row : Record) (key : Value) :
    rowsOf column (rows ++ [row]) key
      = if key.same (Record.value row column) then rowsOf column rows key ++ [row]
        else rowsOf column rows key := by
  rw [rowsOf, List.filter_append, List.filter_singleton]
  cases key.same (Record.value row column) <;> simp [rowsOf]

/-- Groups over keys of which no two are equal stay so when a row comes that has one of them. -/
theorem add_rowsOf {keys : List Value} (hkeys : ∀ k ∈ keys, k.isDefinite = true)
    (hapart : keys.Pairwise Apart) (row : Record) :
    add (Record.value row column) row (keys.map fun k => ⟨k, rowsOf column rows k⟩)
      = if keys.any (·.same (Record.value row column))
        then keys.map fun k => ⟨k, rowsOf column (rows ++ [row]) k⟩
        else (keys.map fun k => ⟨k, rowsOf column (rows ++ [row]) k⟩)
          ++ [⟨Record.value row column, [row]⟩] := by
  induction keys with
  | nil => rfl
  | cons k keys ih =>
    obtain ⟨hk, hrest⟩ := List.forall_mem_cons.mp hkeys
    obtain ⟨hkapart, hrestapart⟩ := List.pairwise_cons.mp hapart
    rw [List.map_cons, List.map_cons, add, List.any_cons, rowsOf_concat]
    dsimp only
    cases hsame : k.same (Record.value row column) with
    | true =>
      -- no later key equals the value too
      have hlater : keys.map (fun l => (⟨l, rowsOf column (rows ++ [row]) l⟩ : Group))
          = keys.map fun l => ⟨l, rowsOf column rows l⟩ := by
        refine List.map_congr_left fun l hl => ?_
        rw [rowsOf_concat, if_neg]
        intro hlsame
        have hkl := Value.same_trans hsame (Value.same_symm (hrest l hl) hlsame)
        rw [hkapart l hl] at hkl
        cases hkl
      rw [if_pos rfl, Bool.true_or, if_pos rfl, if_pos rfl, hlater]
    | false =>
      rw [if_neg Bool.false_ne_true, Bool.false_or, if_neg Bool.false_ne_true, ih hrest hrestapart]
      split <;> rfl

/-- Each key of the column with the rows that have it. -/
theorem partition_eq_rowsOf (h : ∀ row ∈ rows, (Record.value row column).isDefinite = true) :
    partition rows column
      = (distinct (rows.map fun row => Record.value row column)).map
          fun k => ⟨k, rowsOf column rows k⟩ := by
  induction rows using List.reverseRecOn with
  | nil => rfl
  | append_singleton rows row ih =>
    have hbefore : ∀ r ∈ rows, (Record.value r column).isDefinite = true := fun r hr =>
      h r (List.mem_append_left _ hr)
    have hrow : (Record.value row column).isDefinite = true := h row (by simp)
    have hkeys : ∀ k ∈ distinct (rows.map fun row => Record.value row column),
        k.isDefinite = true := by
      intro k hk
      obtain ⟨r, hr, rfl⟩ := List.mem_map.mp ((distinct_sublist _).subset hk)
      exact hbefore r hr
    rw [partition_concat, ih hbefore, add_rowsOf hkeys (pairwise_distinct _), List.map_append,
      List.map_singleton, distinct_concat]
    split
    · rfl
    · rename_i hnew
      -- a row with the new key before it would have left it out
      have hnone : rowsOf column rows (Record.value row column) = [] := by
        refine List.filter_eq_nil_iff.mpr fun r hr hsame => hnew ?_
        rw [any_distinct, any_same_eq_true_iff]
        exact ⟨_, List.mem_map_of_mem hr, Value.same_symm hrow hsame⟩
      rw [List.map_append, List.map_singleton, rowsOf_concat, if_pos (Value.same_self hrow), hnone]
      rfl

/-! ## One group for each row -/

section Definite

variable (h : ∀ row ∈ rows, (Record.value row column).isDefinite = true) {g g' : Group}
  {row row' : Record}
include h

theorem mem_rows_iff (hg : g ∈ partition rows column) :
    row ∈ g.rows ↔ row ∈ rows ∧ g.key.same (Record.value row column) = true := by
  rw [partition_eq_rowsOf h] at hg
  obtain ⟨k, _, rfl⟩ := List.mem_map.mp hg
  exact List.mem_filter

theorem sublist_of_mem_partition (hg : g ∈ partition rows column) : g.rows.Sublist rows := by
  rw [partition_eq_rowsOf h] at hg
  obtain ⟨k, _, rfl⟩ := List.mem_map.mp hg
  exact List.filter_sublist

theorem isDefinite_key (hg : g ∈ partition rows column) : g.key.isDefinite = true := by
  obtain ⟨first, others, hfirst, heq⟩ := begins_partition rows column g hg
  rw [heq]
  exact h first ((mem_rows_iff h hg).mp (by simp [hfirst])).1

theorem pairwise_keys : (partition rows column).Pairwise fun b c =>
    b.key.same c.key = false ∧ c.key.same b.key = false := by
  refine (pairwise_partition rows column).imp_of_mem fun {b c} hb hc hbc => ⟨hbc, ?_⟩
  rw [Value.same_comm (isDefinite_key h hc) (isDefinite_key h hb)]
  exact hbc

theorem eq_of_mem_rows (hg : g ∈ partition rows column) (hg' : g' ∈ partition rows column)
    (hmem : row ∈ g.rows) (hmem' : row ∈ g'.rows) : g = g' := by
  by_contra hne
  have hsame := ((mem_rows_iff h hg).mp hmem).2
  have hsame' := Value.same_symm (isDefinite_key h hg') ((mem_rows_iff h hg').mp hmem').2
  have hsymm : Std.Symm fun b c : Group => b.key.same c.key = false ∧ c.key.same b.key = false :=
    ⟨fun _ _ hbc => ⟨hbc.2, hbc.1⟩⟩
  have hkeys := (pairwise_keys h).forall hg hg' hne
  rw [Value.same_trans hsame hsame'] at hkeys
  cases hkeys.1

/-- Rows are together if and only if their values are equal. -/
theorem together_iff (hrow : row ∈ rows) (hrow' : row' ∈ rows) :
    (∃ g ∈ partition rows column, row ∈ g.rows ∧ row' ∈ g.rows) ↔
      (Record.value row column).same (Record.value row' column) = true := by
  constructor
  · rintro ⟨g, hg, hmem, hmem'⟩
    have hsame := ((mem_rows_iff h hg).mp hmem).2
    exact Value.same_trans (Value.same_symm (isDefinite_key h hg) hsame)
      ((mem_rows_iff h hg).mp hmem').2
  · intro hsame
    obtain ⟨g, hg, hmem⟩ := exists_group hrow column
    have hkey := Value.same_trans ((mem_rows_iff h hg).mp hmem).2 hsame
    exact ⟨g, hg, hmem, (mem_rows_iff h hg).mpr ⟨hrow', hkey⟩⟩

end Definite

/-- Rows split by the value of a column. -/
structure SplitByValue (column : String) (rows : List Record) (groups : List Group) : Prop where
  /-- No row is lost and none comes twice. -/
  perm : (groups.flatMap Group.rows).Perm rows
  /-- The rows of a group keep their order. -/
  sublist : ∀ g ∈ groups, g.rows.Sublist rows
  one : ∀ row ∈ rows, ∃! g, g ∈ groups ∧ row ∈ g.rows
  /-- Two rows share a group if and only if their values are equal. -/
  together : ∀ row ∈ rows, ∀ row' ∈ rows, (∃ g ∈ groups, row ∈ g.rows ∧ row' ∈ g.rows) ↔
    (Record.value row column).same (Record.value row' column) = true
  /-- The groups come in the order in which their values first came. -/
  keys : groups.map Group.key = firsts (rows.map fun row => Record.value row column)
  begins : ∀ g ∈ groups, Begins column g

theorem splitByValue_partition (h : ∀ row ∈ rows, (Record.value row column).isDefinite = true) :
    SplitByValue column rows (partition rows column) where
  perm := partition_perm rows column
  sublist _ hg := sublist_of_mem_partition h hg
  one row hrow := by
    obtain ⟨g, hg, hmem⟩ := exists_group hrow column
    exact ⟨g, ⟨hg, hmem⟩, fun _ hother => eq_of_mem_rows h hother.1 hg hother.2 hmem⟩
  together _ hrow _ hrow' := together_iff h hrow hrow'
  keys := by rw [keys_partition, distinct_eq_firsts]
  begins := begins_partition rows column

/-! ## What is answered -/

/-- The key of a group is lost when the result takes its place. -/
theorem labelled_iff (key result : Value) :
    Record.find? (row column name key result) column = some key ↔ column ≠ name ∨ result = key := by
  by_cases hname : column = name
  · subst hname
    simp [row_self, Record.find?]
  · simp [row_of_ne hname, Record.find?, hname]

/-- The number of rows of each group. -/
theorem reduceAll_count (target : Option String) (rank : Option Binary64) (groups : List Group) :
    reduceAll column .count target rank name groups
      = .ok (groups.map fun g => .object (row column name g.key (.int g.rows.length))) := by
  induction groups with
  | nil => rfl
  | cons g rest ih =>
    rw [reduceAll, ih]
    rfl

theorem sum_lengths_partition (rows : List Record) (column : String) :
    ((partition rows column).map fun g => g.rows.length).sum = rows.length := by
  rw [← (partition_perm rows column).length_eq, List.length_flatMap]

theorem groups_by_value_iff
    (hcolumn : ∃ first rest, rows = first :: rest ∧ Record.has first column = true)
    (h : ∀ row ∈ rows, (Record.value row column).isDefinite = true) :
    SplitByValue column rows (partition rows column) ∧
      partition rows column = scan rows column ∧
      (∀ name target rank, ∃ out : List Record, ∃ counts : List Nat,
        reduce rows column .count target rank name = .ok (.array (out.map .object)) ∧
          out.map (Record.find? · name) = counts.map (fun n => some (.int n)) ∧
          counts.sum = rows.length) ∧
      ∀ name a target rank v, reduce rows column a target rank name = .ok v →
        ∃ out, v = .array (out.map .object) ∧
          List.Forall₂ (fun g answer =>
              ∃ result, Reduction.reduce g.rows a target rank = .ok result ∧
                Record.find? answer name = some result ∧
                (Record.find? answer column = some g.key ↔ column ≠ name ∨ result = g.key))
            (partition rows column) out := by
  refine ⟨splitByValue_partition h, partition_eq_scan rows column, ?_, ?_⟩
  · intro name target rank
    obtain ⟨first, rest, rfl, hhas⟩ := hcolumn
    refine ⟨(partition (first :: rest) column).map fun g =>
        row column name g.key (.int g.rows.length),
      (partition (first :: rest) column).map fun g => g.rows.length, ?_, ?_,
      sum_lengths_partition _ column⟩
    · rw [reduce, if_pos hhas, reduceAll_count, List.map_map]
      rfl
    · rw [List.map_map, List.map_map]
      exact List.map_congr_left fun g _ => Assoc.lookup_set_self name _ _
  · intro name a target rank v hv
    obtain ⟨out, rfl, hout⟩ := reduce_eq_ok hv
    refine ⟨out, rfl, hout.imp ?_⟩
    rintro g answer ⟨result, hresult, rfl⟩
    exact ⟨result, hresult, Assoc.lookup_set_self name _ _, labelled_iff g.key result⟩

/-- Rows under one as a number, a truth value and a double, beside sequences that hold it, null and
no value at all. -/
def mixedKeys : List Record :=
  [[("device", .int 1)], [("device", .array [.int 1])], [("device", .bool true)],
    [("device", .tuple [.int 1, .array []])], [("voltage", .int 1)],
    [("device", .array [.bool true])], [("device", .null)], [("device", .float (.ofInt 1))],
    [("device", .tuple [.bool true, .array []])]]

theorem groups_by_value_iff_mixedKeys :
    (∃ first rest, mixedKeys = first :: rest ∧ Record.has first "device" = true) ∧
      (∀ row ∈ mixedKeys, (Record.value row "device").isDefinite = true) ∧
      SplitByValue "device" mixedKeys (partition mixedKeys "device") ∧
      (partition mixedKeys "device").map (fun g => g.rows.length) = [3, 2, 2, 2] := by
  have hcolumn : ∃ first rest, mixedKeys = first :: rest ∧ Record.has first "device" = true :=
    ⟨_, _, rfl, by decide⟩
  have hdefinite : ∀ row ∈ mixedKeys, (Record.value row "device").isDefinite = true := by decide
  exact ⟨hcolumn, hdefinite, (groups_by_value_iff hcolumn hdefinite).1, by decide +kernel⟩

/-- Two rows whose column has the name that results have. -/
def twoResults : List Record := [[("result", .text "a")], [("result", .text "b")]]

theorem count_hides_keys :
    (partition twoResults "result").map Group.key = [.text "a", .text "b"] ∧
      reduce twoResults "result" .count none none "result"
        = .ok (.array ([[("result", .int 1)], [("result", .int 1)]].map .object)) ∧
      ¬List.Forall₂ (fun g answer => Record.find? answer "result" = some g.key)
        (partition twoResults "result") [[("result", .int 1)], [("result", .int 1)]] := by
  have hpartition : partition twoResults "result"
      = [⟨.text "a", [[("result", .text "a")]]⟩, ⟨.text "b", [[("result", .text "b")]]⟩] := rfl
  refine ⟨by rw [hpartition]; rfl, rfl, fun hlabels => ?_⟩
  rw [hpartition] at hlabels
  cases hlabels with
  | cons hfirst _ => cases hfirst

end Group
end EventQuery
