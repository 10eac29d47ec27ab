import EventQuery.Proofs.Reduction.Faults
import EventQuery.Proofs.Reduction.Integer
import EventQuery.Proofs.Reduction.Place
import Mathlib.Data.List.Sort

/-!
# EventQuery.Proofs.Reduction.Percentile

Percentiles of integers. Other values than numbers take no part, and a percentile is the element at
the place of its rank in the ascending order of the integers (`yields_iff`), which is one order
however they were listed (`ofValues_of_perm`). Below `2 ^ 53` integers the percentiles are in the
order of their ranks, from the least integer to the greatest (`inOrder`).
-/

namespace EventQuery
namespace Percentile

open Binary64

variable {values values' : List Value} {ns ms : List Int} {r : Binary64} {m n : Int}

/-- The integers among some values. -/
def listed (values : List Value) : List Int := values.filterMap Value.integer?

/-- The integers among some values in ascending order. -/
def ascending (values : List Value) : List Int := (listed values).insertionSort (· ≤ ·)

/-- Values whose numbers are integers. -/
def Whole (values : List Value) : Prop := ∀ v ∈ values, v.isNumber = true → ∃ n, v = .int n

/-- Values whose numbers are integers that a double holds exactly. -/
structure Exact (values : List Value) : Prop where
  whole : Whole values
  short : ∀ n ∈ listed values, n.natAbs ≤ twoTo 53

theorem mem_ascending : n ∈ ascending values ↔ n ∈ listed values := List.mem_insertionSort _

theorem length_ascending : (ascending values).length = (listed values).length :=
  List.length_insertionSort _ _

theorem pairwise_ascending (values : List Value) : (ascending values).Pairwise (· ≤ ·) :=
  List.pairwise_insertionSort _ _

/-! ## Integers as doubles -/

theorem numbers_eq (h : Whole values) : numbers values = numbers ((listed values).map .int) := by
  induction values with
  | nil => rfl
  | cons v rest ih =>
    obtain ⟨hv, hrest⟩ := List.forall_mem_cons.mp h
    cases v with
    | int n =>
      have hcons : listed (.int n :: rest) = n :: listed rest := rfl
      rw [hcons, List.map_cons, numbers, numbers, ih hrest]
    | float x =>
      obtain ⟨n, hn⟩ := hv rfl
      cases hn
    | _ => exact ih hrest

theorem numberOf_eq_some {v : Value} {x : Binary64} (hv : v = .int n) (h : ofInt? n = some x) :
    numberOf v = .ok (some x) := by
  -- by the cases of the definition, so that no double is computed
  fun_cases numberOf v with
  | case1 k hk =>
    cases hv
    rw [h] at hk
    cases hk
  | case2 k y hy =>
    cases hv
    rw [h] at hy
    cases hy
    rfl
  | case3 y => cases hv
  | case4 =>
    rename_i hint _
    exact absurd hv (hint n)

theorem numbers_cons {v : Value} {x : Binary64} {xs : List Binary64}
    (hv : numberOf v = .ok (some x)) (hrest : numbers values = .ok xs) :
    numbers (v :: values) = .ok (x :: xs) := by
  rw [numbers, hv]
  dsimp only
  rw [hrest]
  rfl

theorem numbers_ints (h : ∀ n ∈ ns, n.natAbs < limit) :
    numbers (ns.map .int) = .ok (ns.map ofInt) := by
  induction ns with
  | nil => rfl
  | cons n rest ih =>
    obtain ⟨hn, hrest⟩ := List.forall_mem_cons.mp h
    exact numbers_cons (numberOf_eq_some rfl (ofInt?_eq_some hn)) (ih hrest)

theorem rank_ofInt_mono (h : m ≤ n) : (ofInt m).rank ≤ (ofInt n).rank :=
  rank_ofRat_mono (by exact_mod_cast h)

/-- Integers that round to doubles of one rank round to one double. -/
theorem ofInt_eq_of_rank_eq (h : (ofInt m).rank = (ofInt n).rank) : ofInt m = ofInt n := by
  have hsign (k : Int) : decide ((k : Rat) < 0) = decide ((ofInt k).rank < 0) := by
    by_cases hk : k < 0
    · have hone : (ofInt (-1)).rank < 0 := by decide +kernel
      have hle : (ofInt k).rank ≤ (ofInt (-1)).rank := rank_ofInt_mono (by omega)
      simp [hk, hle.trans_lt hone]
    · have hzero : (ofInt 0).rank = 0 := by decide +kernel
      have hle : (ofInt 0).rank ≤ (ofInt k).rank := rank_ofInt_mono (by omega)
      simp [hk, hzero ▸ hle]
  have hplace := congrArg Int.natAbs h
  have hsame := (hsign m).trans ((by rw [h]) : _ = _) |>.trans (hsign n).symm
  simp only [ofInt, ofRat, Binary64.round, natAbs_rank] at hplace ⊢
  rw [hsame, Fin.ext hplace]

/-! ## Doubles in ascending order -/

theorem insert_eq (x : Binary64) (xs : List Binary64) :
    insert x xs = xs.orderedInsert (fun a b => a.rank ≤ b.rank) x := by
  induction xs with
  | nil => rfl
  | cons y rest ih => rw [insert, List.orderedInsert_cons, ih]

theorem sorted_eq (xs : List Binary64) :
    sorted xs = xs.insertionSort fun a b => a.rank ≤ b.rank := by
  induction xs with
  | nil => rfl
  | cons x rest ih =>
    rw [List.insertionSort_cons, ← ih, ← insert_eq]
    rfl

theorem rank_ofInt_le_iff (hm : m.natAbs ≤ twoTo 53) (hn : n.natAbs ≤ twoTo 53) :
    (ofInt m).rank ≤ (ofInt n).rank ↔ m ≤ n := by
  refine ⟨fun h => ?_, rank_ofInt_mono⟩
  have hatMost : (ofInt m).atMost (ofInt n) = true := by
    rw [atMost, ofInt, ofInt, isNaN_ofRat, isNaN_ofRat]
    exact decide_eq_true h
  have hle := toRat_le_toRat (isFinite_ofInt hm) (isFinite_ofInt hn) hatMost
  rw [toRat_ofInt hm, toRat_ofInt hn] at hle
  exact_mod_cast hle

theorem sorted_ints (h : ∀ n ∈ ns, n.natAbs ≤ twoTo 53) :
    sorted (ns.map ofInt) = (ns.insertionSort (· ≤ ·)).map ofInt := by
  rw [sorted_eq]
  refine (List.map_insertionSort _ _ _ _ fun m hm n hn => ?_).symm
  exact (rank_ofInt_le_iff (h m hm) (h n hn)).symm

/-- One order of the same integers, though some of them may round to the same double. -/
theorem sorted_of_perm (h : ns.Perm ms) : sorted (ns.map ofInt) = sorted (ms.map ofInt) := by
  have hperm : (sorted (ns.map ofInt)).Perm (sorted (ms.map ofInt)) :=
    (sorted_perm _).trans ((h.map ofInt).trans (sorted_perm _).symm)
  refine hperm.eq_of_pairwise ?_ (sorted_pairwise _) (sorted_pairwise _)
  intro a b ha hb hab hba
  obtain ⟨m, _, rfl⟩ := List.mem_map.mp ((sorted_perm _).mem_iff.mp ha)
  obtain ⟨n, _, rfl⟩ := List.mem_map.mp ((sorted_perm _).mem_iff.mp hb)
  exact ofInt_eq_of_rank_eq (Int.le_antisymm hab hba)

/-! ## Percentiles -/

theorem ofNumbers_ints (hns : ns ≠ []) :
    ofNumbers (ns.map ofInt) r
      = match (sorted (ns.map ofInt))[place ns.length r]? with
        | some x => .float x
        | none => .null := by
  have hempty : (ns.map ofInt).isEmpty = false := by simpa using hns
  have hnan : (ns.map ofInt).any Binary64.isNaN = false := by
    simp [ofInt, isNaN_ofRat]
  rw [ofNumbers, hempty, hnan, List.length_map]
  rfl

theorem ofNumbers_of_perm (h : ns.Perm ms) :
    ofNumbers (ns.map ofInt) r = ofNumbers (ms.map ofInt) r := by
  by_cases hms : ms = []
  · subst hms
    rw [List.perm_nil.mp h]
  · have hns : ns ≠ [] := by
      rintro rfl
      exact hms (List.nil_perm.mp h)
    rw [ofNumbers_ints hns, ofNumbers_ints hms, sorted_of_perm h, h.length_eq]

theorem map_numbers_of_perm (h : ns.Perm ms) :
    (numbers (ns.map .int)).map (ofNumbers · r) = (numbers (ms.map .int)).map (ofNumbers · r) := by
  by_cases hlimit : ∀ n ∈ ns, n.natAbs < limit
  · have hlimit' : ∀ n ∈ ms, n.natAbs < limit := fun n hn => hlimit n (h.mem_iff.mpr hn)
    rw [numbers_ints hlimit, numbers_ints hlimit']
    exact congrArg Except.ok (ofNumbers_of_perm h)
  · push Not at hlimit
    obtain ⟨n, hn, hbeyond⟩ := hlimit
    have hfails {ks : List Int} (hk : n ∈ ks) :
        numbers (ks.map .int) = .error (.fault .beyondDouble) :=
      numbers_eq_error_iff.mpr ⟨rfl, _, List.mem_map_of_mem hk, n, rfl, hbeyond⟩
    rw [hfails hn, hfails (h.mem_iff.mp hn)]

/-- The order of the values does not matter, and nor do other values than numbers. -/
theorem ofValues_of_perm {rank : Option Binary64} (h : Whole values) (h' : Whole values')
    (hperm : (listed values').Perm (listed values)) :
    ofValues values' rank = ofValues values rank := by
  cases rank with
  | none => rfl
  | some r => rw [ofValues, ofValues, numbers_eq h, numbers_eq h', map_numbers_of_perm hperm]

theorem listed_filter (values : List Value) :
    listed (values.filter Value.isNumber) = listed values := by
  induction values with
  | nil => rfl
  | cons v rest ih =>
    cases v with
    | int n => exact congrArg (n :: ·) ih
    | _ => exact ih

theorem Whole.of_perm_numbers (h : Whole values)
    (hperm : (values'.filter Value.isNumber).Perm (values.filter Value.isNumber)) :
    Whole values' := by
  intro v hv hnumber
  have hmem := hperm.mem_iff.mp (List.mem_filter.mpr ⟨hv, hnumber⟩)
  exact h v (List.mem_filter.mp hmem).1 hnumber

theorem ofValues_of_perm_numbers {rank : Option Binary64} (h : Whole values)
    (hperm : (values'.filter Value.isNumber).Perm (values.filter Value.isNumber)) :
    ofValues values' rank = ofValues values rank := by
  refine ofValues_of_perm h (h.of_perm_numbers hperm) ?_
  rw [← listed_filter values, ← listed_filter values']
  exact hperm.filterMap _

/-- A percentile of some values is an integer, as a double. -/
def Yields (values : List Value) (r : Binary64) (n : Int) : Prop :=
  ofValues values (some r) = .ok (.float (ofInt n))

theorem ofInt_inj (hm : m.natAbs ≤ twoTo 53) (hn : n.natAbs ≤ twoTo 53) :
    ofInt m = ofInt n ↔ m = n := by
  refine ⟨fun h => ?_, congrArg ofInt⟩
  have hrank := congrArg Binary64.rank h
  exact Int.le_antisymm ((rank_ofInt_le_iff hm hn).mp hrank.le)
    ((rank_ofInt_le_iff hn hm).mp hrank.ge)

theorem yields_iff (h : Exact values) (hr : r.IsPercentage) (hne : listed values ≠ [])
    (hn : n.natAbs ≤ twoTo 53) :
    Yields values r n ↔ (ascending values)[place (listed values).length r]? = some n := by
  have hlimit : ∀ k ∈ listed values, k.natAbs < limit :=
    fun k hk => (h.short k hk).trans_lt twoTo_lt_limit
  have hvalue : ofValues values (some r) = .ok (ofNumbers ((listed values).map ofInt) r) := by
    rw [ofValues, if_pos (isRank_iff.mpr hr), numbers_eq h.whole, numbers_ints hlimit]
    rfl
  rw [Yields, hvalue, ofNumbers_ints hne, sorted_ints h.short, ← ascending, List.getElem?_map]
  cases hfound : (ascending values)[place (listed values).length r]? with
  | none => simp
  | some k =>
    have hk := h.short k (mem_ascending.mp (List.mem_of_getElem? hfound))
    simp [ofInt_inj hk hn]

/-! ## The order of the ranks -/

/-- The element at the place of a rank. -/
def pick (values : List Value) (r : Binary64) : Int :=
  (ascending values)[place (listed values).length r]?.getD 0

/-- An element for each rank, the least for the lowest rank and the greatest for the highest. -/
structure InOrder (values : List Value) (pick : Binary64 → Int) : Prop where
  yields : ∀ r, r.IsPercentage → Yields values r (pick r)
  mem : ∀ r, r.IsPercentage → pick r ∈ listed values
  exact : ∀ r, r.IsPercentage → (ofInt (pick r)).toRat = pick r
  mono : ∀ r r', r.IsPercentage → r'.IsPercentage → r.toRat ≤ r'.toRat → pick r ≤ pick r'
  least : ∀ r, r.IsPercentage → r.toRat = 0 → IsLeast {n | n ∈ listed values} (pick r)
  greatest : ∀ r, r.IsPercentage → r.toRat = 100 → IsGreatest {n | n ∈ listed values} (pick r)
  middle : ∀ r, r.IsPercentage → r.toRat = 50 →
    (ascending values)[((listed values).length + 1) / 2 - 1]? = some (pick r)

section Short

variable (hne : listed values ≠ []) (hcount : (listed values).length < twoTo 53)
include hne hcount

theorem exists_pick_eq (hr : r.IsPercentage) :
    ∃ hk : place (listed values).length r < (ascending values).length,
      pick values r = (ascending values)[place (listed values).length r] := by
  have hk : place (listed values).length r < (ascending values).length :=
    (place_lt hcount hr (List.length_pos_of_ne_nil hne)).trans_eq length_ascending.symm
  exact ⟨hk, by rw [pick, List.getElem?_eq_getElem hk, Option.getD_some]⟩

theorem inOrder (h : Exact values) : InOrder values (pick values) := by
  have hfound {r : Binary64} (hr : r.IsPercentage) :
      (ascending values)[place (listed values).length r]? = some (pick values r) := by
    obtain ⟨hk, hpick⟩ := exists_pick_eq hne hcount hr
    rw [hpick, List.getElem?_eq_getElem hk]
  have hmem {r : Binary64} (hr : r.IsPercentage) : pick values r ∈ listed values :=
    mem_ascending.mp (List.mem_of_getElem? (hfound hr))
  have hposition {n : Int} (hn : n ∈ listed values) :
      ∃ i, ∃ hi : i < (ascending values).length, (ascending values)[i] = n :=
    List.getElem_of_mem (mem_ascending.mpr hn)
  have hsorted := (pairwise_ascending values).sortedLE
  constructor
  case yields => exact fun r hr => (yields_iff h hr hne (h.short _ (hmem hr))).mpr (hfound hr)
  case mem => exact fun r hr => hmem hr
  case exact => exact fun r hr => toRat_ofInt (h.short _ (hmem hr))
  case mono =>
    intro r r' hr hr' hle
    obtain ⟨_, hpick⟩ := exists_pick_eq hne hcount hr
    obtain ⟨_, hpick'⟩ := exists_pick_eq hne hcount hr'
    rw [hpick, hpick']
    exact hsorted.getElem_le_getElem_of_le (place_mono hcount hr hr' hle)
  case least =>
    intro r hr hzero
    obtain ⟨_, hpick⟩ := exists_pick_eq hne hcount hr
    refine ⟨hmem hr, fun n hn => ?_⟩
    obtain ⟨i, hi, rfl⟩ := hposition hn
    rw [hpick]
    exact hsorted.getElem_le_getElem_of_le (by rw [place_of_zero hcount hr hzero]; omega)
  case greatest =>
    intro r hr hhundred
    obtain ⟨_, hpick⟩ := exists_pick_eq hne hcount hr
    refine ⟨hmem hr, fun n hn => ?_⟩
    obtain ⟨i, hi, rfl⟩ := hposition hn
    rw [hpick]
    refine hsorted.getElem_le_getElem_of_le ?_
    rw [length_ascending] at hi
    rw [place_of_hundred hcount hr hhundred]
    omega
  case middle =>
    intro r hr hfifty
    rw [← place_of_fifty hcount hr hfifty]
    exact hfound hr

end Short

end Percentile
end EventQuery
