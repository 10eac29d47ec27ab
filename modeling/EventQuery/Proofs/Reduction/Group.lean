import EventQuery.Proofs.Outcome
import EventQuery.Proofs.Reduction.Register
import EventQuery.Reduction.Group
import Mathlib.Data.List.Forall2

/-!
# EventQuery.Proofs.Reduction.Group

Groups of rows and what they reduce to. The groups are those of one scan over all keys
(`partition_concat`). Their keys are the distinct values of the column (`keys_partition`), of which
no two are equal (`pairwise_distinct`) and none is left out (`exists_mem_distinct`); together they
hold the rows that were split (`partition_perm`), and each group gives one row, in their order
(`reduce_eq_ok`).
-/

namespace EventQuery
namespace Reduction

/-- Two values that are not equal. -/
def Apart (x y : Value) : Prop := x.same y = false

theorem any_same_eq_true_iff {seen : List Value} {v : Value} :
    (seen.any fun k => k.same v) = true ↔ ∃ k ∈ seen, k.same v = true := List.any_eq_true

/-- The last value is kept unless one that is kept equals it. -/
theorem distinct_concat (values : List Value) (v : Value) :
    distinct (values ++ [v])
      = if (distinct values).any (·.same v) then distinct values else distinct values ++ [v] := by
  rw [distinct, List.foldl_concat, (Register.indexed_foldl values).values_enter]
  rfl

theorem pairwise_distinct (values : List Value) : (distinct values).Pairwise Apart := by
  induction values using List.reverseRecOn with
  | nil => exact .nil
  | append_singleton values v ih =>
    rw [distinct_concat]
    split
    · exact ih
    · rename_i hnew
      refine List.pairwise_append.mpr ⟨ih, List.pairwise_singleton _ _, fun k hk w hw => ?_⟩
      rw [List.mem_singleton.mp hw]
      exact Bool.eq_false_iff.mpr fun hsame => hnew (any_same_eq_true_iff.mpr ⟨k, hk, hsame⟩)

/-- Every value is among the distinct ones, or equals one of them. -/
theorem exists_mem_distinct {values : List Value} {v : Value} (h : v ∈ values) :
    ∃ k ∈ distinct values, k = v ∨ k.same v = true := by
  induction values using List.reverseRecOn with
  | nil => cases h
  | append_singleton values w ih =>
    rw [distinct_concat]
    rcases List.mem_append.mp h with hbefore | hlast
    · obtain ⟨k, hk, hv⟩ := ih hbefore
      refine ⟨k, ?_, hv⟩
      split
      · exact hk
      · exact List.mem_append_left _ hk
    · rw [List.mem_singleton.mp hlast]
      split
      · rename_i hold
        obtain ⟨k, hk, hsame⟩ := any_same_eq_true_iff.mp hold
        exact ⟨k, hk, .inr hsame⟩
      · exact ⟨w, by simp, .inl rfl⟩

theorem distinct_sublist (values : List Value) : (distinct values).Sublist values := by
  induction values using List.reverseRecOn with
  | nil => exact .slnil
  | append_singleton values v ih =>
    rw [distinct_concat]
    split
    · exact ih.trans (List.sublist_append_left values [v])
    · exact ih.append_right [v]

end Reduction

namespace Group

open Reduction (Apart)

/-! ## One scan over all keys -/

/-- Adds a row to the first group whose key equals a value, or to a new one at the end. -/
def add (key : Value) (row : Record) : List Group → List Group
  | [] => [⟨key, [row]⟩]
  | g :: rest =>
    if g.key.same key then { g with rows := g.rows ++ [row] } :: rest
    else g :: add key row rest

/-- Rows split by comparing each with the keys of all groups so far. -/
def scan (rows : List Record) (column : String) : List Group :=
  rows.foldl (fun groups row => add (Record.value row column) row groups) []

/-- Rows put where the scan finds their key. -/
theorem zipWith_modify_findIdx (key : Value) (row : Record) {keys : List Value}
    {rows : List (List Record)} (h : rows.length = keys.length) :
    (if keys.any (·.same key) then keys else keys ++ [key]).zipWith Group.mk
        ((if keys.findIdx (·.same key) = keys.length then rows ++ [[]] else rows).modify
          (keys.findIdx (·.same key)) (· ++ [row]))
      = add key row (keys.zipWith Group.mk rows) := by
  induction keys generalizing rows with
  | nil =>
    cases List.eq_nil_of_length_eq_zero h
    rfl
  | cons k keys ih =>
    cases rows with
    | nil => cases h
    | cons r rows =>
      have hrest := ih (Nat.succ.inj h)
      rw [List.any_cons, List.findIdx_cons, List.zipWith_cons_cons, add]
      cases hk : k.same key with
      | true => simp
      | false =>
        simp only [Bool.false_or, cond_false, List.length_cons, Nat.add_right_cancel_iff,
          Bool.false_eq_true, if_false]
        rw [← hrest]
        split <;> split <;> simp

end Group

namespace Grouping

/-- There are rows for each number that the register has given. -/
structure Aligned (g : Grouping) : Prop where
  indexed : g.keys.Indexed
  length_eq : g.rows.length = g.keys.values.length

variable {g : Grouping}

theorem aligned_empty : empty.Aligned := ⟨Register.indexed_empty, rfl⟩

theorem Aligned.groups_add (h : g.Aligned) (key : Value) (row : Record) :
    (g.add key row).groups = Group.add key row g.groups := by
  unfold groups add
  dsimp only
  rw [h.indexed.values_enter, h.indexed.number_eq]
  exact Group.zipWith_modify_findIdx key row h.length_eq

theorem Aligned.add (h : g.Aligned) (key : Value) (row : Record) : (g.add key row).Aligned where
  indexed := h.indexed.enter key
  length_eq := by
    unfold Grouping.add
    dsimp only
    rw [h.indexed.values_enter, List.length_modify]
    by_cases hnew : g.keys.number key = g.keys.values.length
    · rw [if_pos hnew, if_neg (by simp [h.indexed.number_eq_length_iff.mp hnew])]
      simp [h.length_eq]
    · rw [if_neg hnew, if_pos (by simpa [h.indexed.number_eq_length_iff] using hnew)]
      exact h.length_eq

theorem aligned_foldl (rows : List Record) (column : String) :
    (rows.foldl (fun g row => g.add (Record.value row column) row) empty).Aligned := by
  induction rows using List.reverseRecOn with
  | nil => exact aligned_empty
  | append_singleton rows row ih =>
    rw [List.foldl_concat]
    exact ih.add _ row

end Grouping

namespace Group

open Reduction (Apart)

/-- The last row goes where a scan over all keys puts it. -/
theorem partition_concat (rows : List Record) (row : Record) (column : String) :
    partition (rows ++ [row]) column
      = add (Record.value row column) row (partition rows column) := by
  rw [partition, List.foldl_concat]
  exact (Grouping.aligned_foldl rows column).groups_add _ row

theorem partition_eq_scan (rows : List Record) (column : String) :
    partition rows column = scan rows column := by
  induction rows using List.reverseRecOn with
  | nil => rfl
  | append_singleton rows row ih => rw [partition_concat, ih, scan, scan, List.foldl_concat]

theorem keys_add (key : Value) (row : Record) (groups : List Group) :
    (add key row groups).map Group.key
      = if (groups.map Group.key).any (fun k => k.same key) then groups.map Group.key
        else groups.map Group.key ++ [key] := by
  induction groups with
  | nil => rfl
  | cons g rest ih =>
    unfold add
    split
    · rename_i hsame
      simp [hsame]
    · rename_i hother
      rw [List.map_cons, ih]
      simp only [List.map_cons, List.any_cons, hother, Bool.false_or]
      split <;> rfl

/-- The keys of the groups are the distinct values of their column, in order. -/
theorem keys_partition (rows : List Record) (column : String) :
    (partition rows column).map Group.key
      = Reduction.distinct (rows.map fun row => Record.value row column) := by
  induction rows using List.reverseRecOn with
  | nil => rfl
  | append_singleton rows row ih =>
    rw [partition_concat, keys_add, List.map_append, List.map_singleton,
      Reduction.distinct_concat, ih]

theorem pairwise_partition (rows : List Record) (column : String) :
    (partition rows column).Pairwise fun g h => Apart g.key h.key := by
  rw [← List.pairwise_map, keys_partition]
  exact Reduction.pairwise_distinct _

/-! ## The rows of all groups -/

theorem rows_add (key : Value) (row : Record) (groups : List Group) :
    ((add key row groups).flatMap Group.rows).Perm (groups.flatMap Group.rows ++ [row]) := by
  induction groups with
  | nil => exact .refl _
  | cons g rest ih =>
    rw [add]
    split
    · rw [List.flatMap_cons, List.flatMap_cons, List.append_assoc, List.append_assoc]
      exact List.perm_append_comm.append_left g.rows
    · rw [List.flatMap_cons, List.flatMap_cons, List.append_assoc]
      exact ih.append_left g.rows

/-- No row is lost and none comes twice. -/
theorem partition_perm (rows : List Record) (column : String) :
    ((partition rows column).flatMap Group.rows).Perm rows := by
  induction rows using List.reverseRecOn with
  | nil => exact .refl _
  | append_singleton rows row ih =>
    rw [partition_concat]
    exact (rows_add _ row _).trans (ih.append_right [row])

theorem exists_group {rows : List Record} {row : Record} (hrow : row ∈ rows) (column : String) :
    ∃ g ∈ partition rows column, row ∈ g.rows :=
  List.mem_flatMap.mp ((partition_perm rows column).mem_iff.mpr hrow)

variable {column name : String} {a : Archetype} {target : Option String} {rank : Option Binary64}

/-! ## What groups reduce to -/

/-- The row that a group with a reduced value gives. -/
def row (column name : String) (key result : Value) : Record :=
  Assoc.set name result [(column, key)]

theorem row_self (column : String) (k x : Value) : row column column k x = [(column, x)] := by
  simp [row, Assoc.set]

theorem row_of_ne (h : column ≠ name) (k x : Value) :
    row column name k x = [(column, k), (name, x)] := by
  simp [row, Assoc.set, h]

/-- What becomes of a group: its key beside the value that its rows reduce to. -/
def ReducesTo (column : String) (a : Archetype) (target : Option String) (rank : Option Binary64)
    (name : String) (g : Group) (out : Record) : Prop :=
  ∃ result, Reduction.reduce g.rows a target rank = .ok result ∧ out = row column name g.key result

theorem reduceAll_eq_ok {groups : List Group} {values : List Value}
    (h : reduceAll column a target rank name groups = .ok values) :
    ∃ out, values = out.map .object ∧
      List.Forall₂ (ReducesTo column a target rank name) groups out := by
  induction groups generalizing values with
  | nil =>
    cases h
    exact ⟨[], rfl, .nil⟩
  | cons g rest ih =>
    unfold reduceAll at h
    split at h
    · cases h
    · rename_i result hresult
      obtain ⟨values, hrest, rfl⟩ := Outcome.map_eq_ok h
      obtain ⟨out, rfl, hout⟩ := ih hrest
      exact ⟨_ :: out, rfl, .cons ⟨result, hresult, rfl⟩ hout⟩

theorem reduce_eq_ok {rows : List Record} {v : Value}
    (h : reduce rows column a target rank name = .ok v) :
    ∃ out, v = .array (out.map .object) ∧
      List.Forall₂ (ReducesTo column a target rank name) (partition rows column) out := by
  cases rows with
  | nil =>
    cases h
    exact ⟨[], rfl, .nil⟩
  | cons first rest =>
    unfold reduce at h
    dsimp only at h
    split at h
    · obtain ⟨values, hall, rfl⟩ := Outcome.map_eq_ok h
      obtain ⟨out, rfl, hout⟩ := reduceAll_eq_ok hall
      exact ⟨out, rfl, hout⟩
    · cases h

end Group
end EventQuery
