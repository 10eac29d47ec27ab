import EventQuery.Proofs.Reduction.Percentile

/-!
# EventQuery.Proofs.Reduction.NearestRank

The nearest rank is the least listed integer that enough of the others do not exceed. It is an
element of the ascending order, at the first place that is far enough (`isNearestRank_iff`). A
percentile is the nearest rank of the share that is computed in doubles, which can be on the other
side of an integer than the exact one. The element next to the nearest rank is returned then, and
never one further away (`nearest_rank_iff`).
-/

namespace EventQuery
namespace Percentile

open Binary64

variable {values : List Value} {ns : List Int} {r : Binary64} {enough : Rat} {m n : Int} {k : Nat}

/-- The least of some integers that at least so many of them do not exceed. -/
def IsNearestRank (ns : List Int) (enough : Rat) (m : Int) : Prop :=
  IsLeast {n | n ∈ ns ∧ enough ≤ ns.countP (· ≤ n)} m

/-! ## Places in ascending order -/

/-- In ascending order, what does not exceed a number comes first. -/
theorem lt_countP_iff (h : ns.Pairwise (· ≤ ·)) (hk : k < ns.length) :
    k < ns.countP (· ≤ n) ↔ ns[k] ≤ n := by
  have hsorted := h.sortedLE
  have hsplit : ns.countP (· ≤ n) = (ns.take k).countP (· ≤ n) + (ns.drop k).countP (· ≤ n) := by
    rw [← List.countP_append, List.take_append_drop]
  constructor
  · intro hlt
    by_contra hless
    have hnone : (ns.drop k).countP (· ≤ n) = 0 := by
      rw [List.countP_eq_zero]
      intro i hi
      obtain ⟨j, hj, rfl⟩ := List.mem_drop_iff_getElem.mp hi
      have hle : ns[k] ≤ ns[k + j] := hsorted.getElem_le_getElem_of_le (Nat.le_add_right k j)
      simp only [decide_eq_true_iff]
      omega
    have hfirst := (ns.take k).countP_le_length (p := fun i => i ≤ n)
    rw [List.length_take] at hfirst
    omega
  · intro hle
    have hall : ∀ i ∈ ns.take (k + 1), decide (i ≤ n) = true := by
      intro i hi
      obtain ⟨j, hj, rfl⟩ := List.mem_take_iff_getElem.mp hi
      have hbefore : ns[j] ≤ ns[k] := hsorted.getElem_le_getElem_of_le (by omega)
      rw [decide_eq_true_iff]
      omega
    have hcount := List.countP_eq_length.mpr hall
    have hsublist := (List.take_sublist (k + 1) ns).countP_le (p := fun i => i ≤ n)
    rw [hcount, List.length_take] at hsublist
    omega

/-- The first place that is far enough. -/
def firstPlace (enough : Rat) : Nat := (enough.ceil - 1).toNat

theorem firstPlace_lt (hns : ns ≠ []) (h : enough ≤ ns.length) : firstPlace enough < ns.length := by
  have hceil : enough.ceil ≤ ns.length := Rat.ceil_le_iff.mpr (by exact_mod_cast h)
  have hpos := List.length_pos_of_ne_nil hns
  unfold firstPlace
  omega

theorem isNearestRank_getElem (h : ns.Pairwise (· ≤ ·)) (hk : firstPlace enough < ns.length) :
    IsNearestRank ns enough ns[firstPlace enough] := by
  constructor
  · have hcount := (lt_countP_iff h hk).mpr le_rfl
    have hceil : enough.ceil ≤ ns.countP (· ≤ ns[firstPlace enough]) := by
      unfold firstPlace at hcount ⊢
      omega
    exact ⟨List.getElem_mem hk, by exact_mod_cast Rat.ceil_le_iff.mp hceil⟩
  · rintro n ⟨hn, hcount⟩
    have hsome : 0 < ns.countP (· ≤ n) := List.countP_pos_iff.mpr ⟨n, hn, by simp⟩
    have hceil : enough.ceil ≤ ns.countP (· ≤ n) := Rat.ceil_le_iff.mpr (by exact_mod_cast hcount)
    refine (lt_countP_iff h hk).mp ?_
    unfold firstPlace
    omega

theorem isNearestRank_of_perm {ms : List Int} (h : ns.Perm ms) :
    IsNearestRank ns enough m ↔ IsNearestRank ms enough m := by
  simp only [IsNearestRank, h.mem_iff, h.countP_eq]

theorem isNearestRank_iff (hne : listed values ≠ []) (h : enough ≤ (listed values).length) :
    IsNearestRank (listed values) enough m ↔
      (ascending values)[firstPlace enough]? = some m := by
  have hk : firstPlace enough < (ascending values).length := by
    rw [length_ascending]
    exact firstPlace_lt hne h
  rw [← isNearestRank_of_perm (List.perm_insertionSort (· ≤ ·) (listed values)), ← ascending,
    List.getElem?_eq_getElem hk, Option.some.injEq]
  have hleast := isNearestRank_getElem (pairwise_ascending values) hk
  refine ⟨fun hm => hleast.unique hm, ?_⟩
  rintro rfl
  exact hleast

/-! ## The exact share of a rank -/

/-- How many elements of a list a rank asks for. -/
def exactShare (count : Nat) (r : Binary64) : Rat := r.toRat * count / 100

theorem exactShare_le {count : Nat} (hr : r.IsPercentage) : exactShare count r ≤ count := by
  have hle := mul_le_mul_of_nonneg_right hr.2.2 (Nat.cast_nonneg (α := Rat) count)
  rw [exactShare, div_le_iff₀ (by norm_num)]
  linarith

/-- Rounded twice, and each time by half a step at most. -/
theorem abs_share_sub_exactShare {count : Nat} (hcount : count < twoTo 53) (hr : r.IsPercentage) :
    |share count r - exactShare count r| < 1 := by
  obtain ⟨hlow, hhigh⟩ := toRat_div_hundred_mem hr
  obtain ⟨hnonneg, hle⟩ := mul_fraction_mem count hr
  have hlarge : (count : Rat) < twoTo 53 := by exact_mod_cast hcount
  have hquotient : |fraction r - r.toRat / 100| * twoTo 53 ≤ 1 / 2 :=
    abs_approx_sub_le_half (by decide) hlow
      (mul_le_of_le_one_left (Nat.cast_nonneg _) (by simpa using hhigh))
  have hproduct : |share count r - count * fraction r| ≤ 1 / 2 := by
    have := abs_approx_sub_le_half (s := 0) (by decide) hnonneg
      (by simpa [twoTo] using hle.trans hlarge.le)
    simpa [share, twoTo] using this
  have hscaled : |count * fraction r - exactShare count r| < 1 / 2 := by
    have hfactor : count * fraction r - exactShare count r
        = count * (fraction r - r.toRat / 100) := by
      rw [exactShare]
      ring
    rw [hfactor, abs_mul, Nat.abs_cast]
    rcases (abs_nonneg (fraction r - r.toRat / 100)).eq_or_lt with hzero | hpos
    · rw [← hzero]
      norm_num
    · have := mul_lt_mul_of_pos_right hlarge hpos
      linarith
  calc |share count r - exactShare count r|
      ≤ |share count r - count * fraction r| + |count * fraction r - exactShare count r| :=
        abs_sub_le _ _ _
    _ < 1 := by linarith

theorem firstPlace_le_add_one {p q : Rat} (h : |p - q| < 1) : firstPlace p ≤ firstPlace q + 1 := by
  have hless : p < q + 1 := by
    have := (abs_lt.mp h).2
    linarith
  have hceil : p.ceil ≤ q.ceil + 1 := by
    refine Rat.ceil_le_iff.mpr (hless.le.trans ?_)
    push_cast
    linarith [Rat.le_ceil (x := q)]
  unfold firstPlace
  omega

theorem yields_nearest_iff (h : Exact values) (hr : r.IsPercentage) (hne : listed values ≠ [])
    (hle : enough ≤ (listed values).length) :
    (∃ m, Yields values r m ∧ IsNearestRank (listed values) enough m) ↔
      (ascending values)[place (listed values).length r]?
        = (ascending values)[firstPlace enough]? := by
  constructor
  · rintro ⟨m, hyields, hnearest⟩
    have hm := h.short m hnearest.1.1
    rw [(yields_iff h hr hne hm).mp hyields, (isNearestRank_iff hne hle).mp hnearest]
  · intro hsame
    have hk : firstPlace enough < (ascending values).length := by
      rw [length_ascending]
      exact firstPlace_lt hne hle
    have hfound := List.getElem?_eq_getElem hk
    have hshort := h.short _ (mem_ascending.mp (List.getElem_mem hk))
    exact ⟨_, (yields_iff h hr hne hshort).mpr (hsame.trans hfound),
      (isNearestRank_iff hne hle).mpr hfound⟩

/-- A percentile is the exact nearest rank if and only if the element at its place is the one at the
first place that is far enough for the exact share. The place itself is the first one for the share
as it is computed, and at most one place off. -/
theorem nearest_rank_iff (h : Exact values) (hr : r.IsPercentage) (hne : listed values ≠ []) :
    ((∃ m, Yields values r m ∧
        IsNearestRank (listed values) (exactShare (listed values).length r) m) ↔
      (ascending values)[place (listed values).length r]?
        = (ascending values)[firstPlace (exactShare (listed values).length r)]?) ∧
    ((listed values).length < twoTo 53 →
      (∃ m, Yields values r m ∧
        IsNearestRank (listed values) (share (listed values).length r) m) ∧
      place (listed values).length r = firstPlace (share (listed values).length r) ∧
      place (listed values).length r ≤ firstPlace (exactShare (listed values).length r) + 1 ∧
      firstPlace (exactShare (listed values).length r) ≤ place (listed values).length r + 1) := by
  refine ⟨yields_nearest_iff h hr hne (exactShare_le hr), fun hcount => ?_⟩
  have hplace : place (listed values).length r = firstPlace (share (listed values).length r) :=
    place_eq hcount hr
  have hclose := abs_share_sub_exactShare hcount hr
  refine ⟨?_, hplace, ?_, ?_⟩
  · exact (yields_nearest_iff h hr hne (share_mem hcount hr).2).mpr (by rw [hplace])
  · rw [hplace]
    exact firstPlace_le_add_one hclose
  · rw [hplace]
    rw [abs_sub_comm] at hclose
    exact firstPlace_le_add_one hclose

/-- The voltages from 1 to 25. -/
def voltages : List Value := (List.range 25).map fun i => .int (i + 1)

theorem exact_voltages : Exact voltages where
  whole := by simp [Whole, voltages]
  short := by decide +kernel

theorem nearest_rank_iff_voltages :
    Exact voltages ∧ (ofInt 40).IsPercentage ∧ listed voltages ≠ [] ∧
      (∃ m, Yields voltages (ofInt 40) m ∧
        IsNearestRank (listed voltages) (exactShare 25 (ofInt 40)) m) ∧
      place (listed voltages).length (ofInt 40)
        = firstPlace (share (listed voltages).length (ofInt 40)) := by
  have hr : (ofInt 40).IsPercentage := isRank_iff.mp (by decide +kernel)
  have hne : listed voltages ≠ [] := by decide +kernel
  obtain ⟨hexact, hcomputed⟩ := nearest_rank_iff exact_voltages hr hne
  obtain ⟨_, hplace, _⟩ := hcomputed (by decide +kernel)
  exact ⟨exact_voltages, hr, hne, hexact.mpr (by decide +kernel), hplace⟩

/-- Seven of the 25 voltages are 28 percent of them, but 25 times the double nearest to 0.28 is
rounded to more than seven. -/
theorem not_nearest_rank_voltages :
    Exact voltages ∧ (ofInt 28).IsPercentage ∧ listed voltages ≠ [] ∧
      Yields voltages (ofInt 28) 8 ∧
      IsNearestRank (listed voltages) (exactShare 25 (ofInt 28)) 7 ∧
      ¬∃ m, Yields voltages (ofInt 28) m ∧
        IsNearestRank (listed voltages) (exactShare 25 (ofInt 28)) m := by
  have hr : (ofInt 28).IsPercentage := isRank_iff.mp (by decide +kernel)
  have hne : listed voltages ≠ [] := by decide +kernel
  have hle : exactShare 25 (ofInt 28) ≤ (listed voltages).length := exactShare_le hr
  refine ⟨exact_voltages, hr, hne, ?_, ?_, ?_⟩
  · exact (yields_iff exact_voltages hr hne (by decide)).mpr (by decide +kernel)
  · exact (isNearestRank_iff hne hle).mpr (by decide +kernel)
  · rw [yields_nearest_iff exact_voltages hr hne hle]
    decide +kernel

end Percentile
end EventQuery
