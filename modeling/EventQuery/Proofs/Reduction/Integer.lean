import EventQuery.Proofs.Reduction.Keyed
import EventQuery.Proofs.Statement.Computed
import Mathlib.Data.Finset.Card
import Mathlib.Data.Rat.Cast.Order
import Mathlib.Order.Bounds.Basic

/-!
# EventQuery.Proofs.Reduction.Integer

Columns of integers, some of them null. `Expression.Denotes` is what the store computes of them, and
the reductions of fetched rows are shown to be that: the least and the greatest (`best_ints`), the
mean (`mean_ints`) and the number of distinct values (`distinct_ints`). Nulls make the one
difference. They take no part in any reduction, but are members of the list that the store makes of
a column, so a list of distinct values is the store's only if there are none
(`reduce_denotes_iff`).
-/

namespace EventQuery

namespace Value

def integer? : Value → Option Int
  | int n => some n
  | _ => none

def IsIntegerOrNull (v : Value) : Prop := v = null ∨ ∃ n, v = int n

theorem mem_filterMap_integer? {values : List Value} {n : Int} :
    n ∈ values.filterMap integer? ↔ int n ∈ values := by
  rw [List.mem_filterMap]
  constructor
  · rintro ⟨v, hv, hn⟩
    cases v <;> cases hn
    exact hv
  · intro hn
    exact ⟨_, hn, rfl⟩

end Value

/-- What an aggregate is of a column of integers and nulls. -/
def Aggregate.Denotes (f : Aggregate) (column : List Value) (v : Value) : Prop :=
  let ns := column.filterMap Value.integer?
  match f with
  | least => ns = [] ∧ v = .null ∨ ∃ n, IsLeast {m | m ∈ ns} n ∧ v = .int n
  | greatest => ns = [] ∧ v = .null ∨ ∃ n, IsGreatest {m | m ∈ ns} n ∧ v = .int n
  | total => ns = [] ∧ v = .null ∨ ns ≠ [] ∧ v = .int ns.sum
  | mean => ns = [] ∧ v = .null ∨ ns ≠ [] ∧ v = .float (.ofRat (ns.sum / ns.length))
  | tally => v = .int ns.toFinset.card
  | members => ∃ items, v = .array items ∧ items.Nodup ∧ ∀ x, x ∈ items ↔ x ∈ column

/-- What an expression is of some rows. -/
def Expression.Denotes (rows : List Record) (v : Value) : Expression → Prop
  | column c => ∀ row ∈ rows, Record.value row c = v
  | .rows => v = .int rows.length
  | aggregate f c => f.Denotes (rows.map fun row => Record.value row c) v

namespace Reduction

/-- The integers of a column. -/
def integers (rows : List Record) (c : String) : List Int :=
  (rows.map fun row => Record.value row c).filterMap Value.integer?

/-- Without a property, every value is null. -/
theorem presentValues_eq (rows : List Record) (target : Option String) :
    presentValues rows target = (targetValues rows target).filter (!·.isNull) := by
  cases target with
  | some c => rfl
  | none =>
    refine (List.filter_eq_nil_iff.mpr fun v hv => ?_).symm
    obtain ⟨row, _, rfl⟩ := List.mem_map.mp hv
    exact Bool.false_ne_true

theorem filter_present {values : List Value} (h : ∀ v ∈ values, v.IsIntegerOrNull) :
    values.filter (!·.isNull) = (values.filterMap Value.integer?).map .int := by
  induction values with
  | nil => rfl
  | cons v rest ih =>
    obtain ⟨hv, hrest⟩ := List.forall_mem_cons.mp h
    rcases hv with rfl | ⟨n, rfl⟩
    · exact ih hrest
    · exact congrArg (Value.int n :: ·) (ih hrest)

theorem presentValues_ints {rows : List Record} {c : String}
    (h : ∀ row ∈ rows, (Record.value row c).IsIntegerOrNull) :
    presentValues rows (some c) = (integers rows c).map .int := by
  rw [presentValues_eq]
  exact filter_present (List.forall_mem_map.mpr h)

/-! ## The best of integers -/

theorem stands_int (a b : Int) : (Value.int a).Stands (.int b) (cmp a b) := by
  refine Value.stands_of_quantity rfl rfl ?_
  simp [Quantity.compare?, Quantity.ofRats, cmp, cmpUsing]

theorem holds_int (op : Operator) (a b : Int) :
    op.holds (.int a) (.int b) = .ok (decide (op.Relates a b)) := by
  rw [(stands_int a b).holds_eq, Operator.accepts_cmp]

theorem best_ints {op : Operator} {key : Int → Int}
    (hop : ∀ a b : Int, op.Relates a b ↔ key a < key b) {ns : List Int} (hns : ns ≠ []) :
    ∃ n ∈ ns, (∀ m ∈ ns, key n ≤ key m) ∧ best op (ns.map .int) = .ok (.int n) := by
  have hprefers : Prefers op (fun v => key (v.integer?.getD 0)) (ns.map .int) := by
    intro u hu v hv
    obtain ⟨a, _, rfl⟩ := List.mem_map.mp hu
    obtain ⟨b, _, rfl⟩ := List.mem_map.mp hv
    rw [holds_int, decide_eq_decide.mpr (hop a b)]
    rfl
  obtain ⟨v, hv, hleast, heq⟩ := exists_best_eq hprefers (by simpa using hns)
  obtain ⟨n, hn, rfl⟩ := List.mem_map.mp hv
  exact ⟨n, hn, fun m hm => hleast _ (List.mem_map_of_mem hm), heq⟩

/-! ## The mean of integers -/

theorem sumFrom_ints (total : Int) (ns : List Int) :
    Value.sumFrom (.int total) (ns.map .int) = .ok (.int (total + ns.sum)) := by
  induction ns generalizing total with
  | nil => simp [Value.sumFrom]
  | cons n rest ih =>
    have hadd : Value.add (.int total) (.int n) = .ok (.int (total + n)) := rfl
    rw [List.map_cons, Value.sumFrom, hadd]
    dsimp only
    rw [ih, List.sum_cons, Int.add_assoc]

/-- The mean of integers is rounded once; it is missing where it is too large for a double. -/
theorem mean_ints {ns : List Int} (hns : ns ≠ []) :
    Value.mean (ns.map .int)
      = if (Binary64.ofRat (ns.sum / ns.length)).isFinite
          then .ok (.float (.ofRat (ns.sum / ns.length)))
        else .error .beyondDouble := by
  have hsum : Value.sum (ns.map .int) = .ok (.int ns.sum) := by
    rw [Value.sum, sumFrom_ints, Int.zero_add]
  cases ns with
  | nil => exact absurd rfl hns
  | cons n rest =>
    rw [List.map_cons] at hsum ⊢
    simp only [Value.mean, hsum, Value.dividedBy, Rat.mkRat_eq_div, List.length_cons,
      List.length_map]

/-! ## Distinct integers -/

theorem same_int (a b : Int) : Value.same (.int a) (.int b) = decide (a = b) := by
  rw [(stands_int a b).same_eq, Bool.eq_iff_iff, beq_iff_eq, cmp_eq_eq_iff, decide_eq_true_iff]

theorem distinct_ints (ns : List Int) :
    ∃ ds : List Int, distinct (ns.map .int) = ds.map .int ∧ ds.Nodup ∧ ∀ n, n ∈ ds ↔ n ∈ ns := by
  have hsame : ∀ u ∈ ns.map Value.int, ∀ v ∈ ns.map Value.int, u.same v = true ↔ u = v := by
    intro u hu v hv
    obtain ⟨a, _, rfl⟩ := List.mem_map.mp hu
    obtain ⟨b, _, rfl⟩ := List.mem_map.mp hv
    rw [same_int, decide_eq_true_iff, Value.int.injEq]
  obtain ⟨ds, _, heq⟩ := List.sublist_map_iff.mp (distinct_sublist (ns.map .int))
  obtain ⟨hnodup, hmem⟩ := nodup_distinct_of_same hsame
  rw [heq] at hnodup hmem
  exact ⟨ds, heq, hnodup.of_map _, fun n => by simpa using hmem (.int n)⟩

/-! ## Reductions and aggregates -/

section Agreement

variable {rows : List Record} {c : String} {rank : Option Binary64}

/-- The column of some rows. -/
def column (rows : List Record) (c : String) : List Value := rows.map fun row => Record.value row c

/-- The mean of the integers of a column; zero without any. -/
def meanOf (rows : List Record) (c : String) : Rat :=
  (integers rows c).sum / (integers rows c).length

theorem mem_integers {n : Int} : n ∈ integers rows c ↔ .int n ∈ column rows c :=
  Value.mem_filterMap_integer?

theorem ofBest_ints {a : Archetype} {shown : String} {op : Operator} {key : Int → Int}
    (hop : ∀ a b : Int, op.Relates a b ↔ key a < key b) (ns : List Int) :
    ∃ v, ofBest a shown op (ns.map .int) = .ok v ∧
      (ns = [] ∧ v = .null ∨ ∃ n ∈ ns, (∀ m ∈ ns, key n ≤ key m) ∧ v = .int n) := by
  unfold ofBest
  by_cases hns : ns = []
  · rw [hns]
    exact ⟨.null, rfl, .inl ⟨rfl, rfl⟩⟩
  · obtain ⟨n, hn, hleast, heq⟩ := best_ints hop hns
    rw [heq]
    exact ⟨.int n, rfl, .inr ⟨n, hn, hleast, rfl⟩⟩

theorem reduce_minimum (h : ∀ row ∈ rows, (Record.value row c).IsIntegerOrNull) :
    ∃ v, reduce rows .minimum (some c) rank = .ok v ∧
      Aggregate.least.Denotes (column rows c) v := by
  have hop (a b : Int) : Operator.lt.Relates a b ↔ id a < id b := Iff.rfl
  simp only [reduce, presentValues_ints h]
  obtain ⟨v, hv, hbest⟩ := ofBest_ints hop (integers rows c)
  refine ⟨v, hv, hbest.imp_right ?_⟩
  rintro ⟨n, hn, hleast, rfl⟩
  exact ⟨n, ⟨hn, hleast⟩, rfl⟩

theorem reduce_maximum (h : ∀ row ∈ rows, (Record.value row c).IsIntegerOrNull) :
    ∃ v, reduce rows .maximum (some c) rank = .ok v ∧
      Aggregate.greatest.Denotes (column rows c) v := by
  -- the greatest is the least of the negated
  have hop (a b : Int) : Operator.gt.Relates a b ↔ -a < -b := neg_lt_neg_iff.symm
  simp only [reduce, presentValues_ints h]
  obtain ⟨v, hv, hbest⟩ := ofBest_ints hop (integers rows c)
  refine ⟨v, hv, hbest.imp_right ?_⟩
  rintro ⟨n, hn, hgreatest, rfl⟩
  exact ⟨n, ⟨hn, fun m hm => neg_le_neg_iff.mp (hgreatest m hm)⟩, rfl⟩

/-- A mean is what the store computes, if a double can be so large. -/
theorem reduce_average_iff (h : ∀ row ∈ rows, (Record.value row c).IsIntegerOrNull) :
    (∃ v, reduce rows .average (some c) rank = .ok v ∧ Aggregate.mean.Denotes (column rows c) v) ↔
      (Binary64.ofRat (meanOf rows c)).isFinite = true := by
  simp only [reduce, presentValues_ints h, ofSum]
  by_cases hns : integers rows c = []
  · have hzero : (Binary64.ofRat 0).isFinite = true := by decide +kernel
    have hmean : meanOf rows c = 0 := by rw [meanOf, hns]; simp
    rw [hns, hmean]
    exact iff_of_true ⟨.null, rfl, .inl ⟨hns, rfl⟩⟩ hzero
  · rw [mean_ints hns, ← meanOf]
    by_cases hfinite : (Binary64.ofRat (meanOf rows c)).isFinite = true
    · rw [if_pos hfinite]
      exact iff_of_true ⟨_, rfl, .inr ⟨hns, rfl⟩⟩ hfinite
    · rw [if_neg hfinite]
      refine iff_of_false ?_ hfinite
      rintro ⟨v, hv, _⟩
      cases hv

theorem reduce_countUnique (h : ∀ row ∈ rows, (Record.value row c).IsIntegerOrNull) :
    ∃ v, reduce rows .countUnique (some c) rank = .ok v ∧
      Aggregate.tally.Denotes (column rows c) v := by
  obtain ⟨ds, hds, hnodup, hmem⟩ := distinct_ints (integers rows c)
  simp only [reduce, presentValues_ints h, hds, List.length_map]
  have hcard : ds.length = (integers rows c).toFinset.card := by
    rw [← List.toFinset_card_of_nodup hnodup]
    congr 1
    ext n
    simp [hmem]
  exact ⟨_, rfl, by rw [hcard]; rfl⟩

/-- The distinct values are what the store collects, if none of them is null. -/
theorem reduce_selectUnique_iff (h : ∀ row ∈ rows, (Record.value row c).IsIntegerOrNull) :
    (∃ v, reduce rows .selectUnique (some c) rank = .ok v ∧
        Aggregate.members.Denotes (column rows c) v) ↔
      ∀ row ∈ rows, Record.value row c ≠ .null := by
  obtain ⟨ds, hds, hnodup, hmem⟩ := distinct_ints (integers rows c)
  simp only [reduce, presentValues_ints h, hds]
  constructor
  · rintro ⟨v, hv, items, rfl, _, hitems⟩ row hrow hnull
    cases hv
    have hin : Value.null ∈ column rows c := hnull ▸ List.mem_map_of_mem hrow
    obtain ⟨n, _, hn⟩ := List.mem_map.mp ((hitems _).mpr hin)
    cases hn
  · intro hpresent
    refine ⟨_, rfl, _, rfl, hnodup.map fun _ _ hab => Value.int.inj hab, fun x => ?_⟩
    rw [List.mem_map]
    constructor
    · rintro ⟨n, hn, rfl⟩
      exact mem_integers.mp ((hmem n).mp hn)
    · intro hx
      obtain ⟨row, hrow, rfl⟩ := List.mem_map.mp hx
      rcases h row hrow with hnull | ⟨n, hn⟩
      · exact absurd hnull (hpresent row hrow)
      · refine ⟨n, (hmem n).mpr (mem_integers.mpr (hn ▸ hx)), hn.symm⟩

end Agreement

/-- The archetypes whose aggregate is the same in the store and of fetched rows. -/
def shared : List Archetype := [.count, .minimum, .maximum, .average, .countUnique, .selectUnique]

theorem reduce_denotes_iff {r : Request} {rows : List Record} (ha : r.archetype ∈ shared)
    (htarget : r.archetype ≠ .count → ∃ c, r.target = some c)
    (h : ∀ c ∈ r.target, ∀ row ∈ rows, (Record.value row c).IsIntegerOrNull) :
    (∃ v, reduce rows r.archetype r.target none = .ok v ∧
        r.computed.expression.Denotes rows v) ↔
      (r.archetype = .average → ∀ c ∈ r.target,
        (Binary64.ofRat (meanOf rows c)).isFinite = true) ∧
      (r.archetype = .selectUnique → ∀ c ∈ r.target, ∀ row ∈ rows,
        Record.value row c ≠ .null) := by
  by_cases hcount : r.archetype = .count
  · rw [Request.computed_of_count hcount, hcount]
    exact iff_of_true ⟨_, rfl, rfl⟩ ⟨nofun, nofun⟩
  · obtain ⟨c, hc⟩ := htarget hcount
    have hvalues := h c hc
    have haggregated {f : Aggregate} {label : String}
        (hf : r.archetype.aggregated? = some (f, label)) :
        r.computed.expression = .aggregate f c := by rw [Request.computed_of_aggregated hf hc]
    simp only [shared, List.mem_cons, List.not_mem_nil, or_false] at ha
    rcases ha with ha | ha | ha | ha | ha | ha
    · exact absurd ha hcount
    · rw [haggregated (by rw [ha]; rfl), ha, hc]
      exact iff_of_true (reduce_minimum hvalues) ⟨nofun, nofun⟩
    · rw [haggregated (by rw [ha]; rfl), ha, hc]
      exact iff_of_true (reduce_maximum hvalues) ⟨nofun, nofun⟩
    · rw [haggregated (by rw [ha]; rfl), ha, hc]
      refine (reduce_average_iff hvalues).trans ?_
      simp
    · rw [haggregated (by rw [ha]; rfl), ha, hc]
      exact iff_of_true (reduce_countUnique hvalues) ⟨nofun, nofun⟩
    · rw [Request.computed_of_selectUnique ha hc, ha, hc]
      refine (reduce_selectUnique_iff hvalues).trans ?_
      simp

end Reduction
end EventQuery
