import EventQuery.Proofs.Binary64.Monotone
import EventQuery.Rollup

/-!
# EventQuery.Proofs.Rollup.Extremes

The least and the greatest of finite doubles, which are gone through once from an infinity that they
are all on one side of. `foldl_lower` and `foldl_higher` say what the walk has found at every point;
of the infinity nothing is left at the end, unless there was nothing to find
(`leastNonzero_cases`, `greatestOf_isGreatest`).
-/

namespace EventQuery

namespace Rollup

variable {xs : List Binary64} {x y low high : Binary64}

/-- One step of the walk to the least number that is not zero. -/
def lower (low x : Binary64) : Binary64 := if !x.isZero && x.less low then x else low

/-- One step of the walk to the greatest number. -/
def higher (high x : Binary64) : Binary64 := if high.less x then x else high

theorem lower_eq (hlow : low.isNaN = false) (hx : x.isNaN = false) :
    lower low x = if x.isZero = false ∧ x.rank < low.rank then x else low := by
  simp [lower, Binary64.less, hlow, hx]

theorem higher_eq (hhigh : high.isNaN = false) (hx : x.isNaN = false) :
    higher high x = if high.rank < x.rank then x else high := by
  simp [higher, Binary64.less, hhigh, hx]

/-- What is found is where the walk began or one of the numbers that are not zero, and none of them
is less. -/
theorem foldl_lower (hlow : low.isNaN = false) (h : ∀ x ∈ xs, x.isNaN = false) :
    (xs.foldl lower low = low ∨ xs.foldl lower low ∈ xs ∧ (xs.foldl lower low).isZero = false) ∧
      (xs.foldl lower low).rank ≤ low.rank ∧
      ∀ x ∈ xs, x.isZero = false → (xs.foldl lower low).rank ≤ x.rank := by
  induction xs generalizing low with
  | nil => simp
  | cons x xs ih =>
    rw [List.forall_mem_cons] at h
    rw [List.foldl_cons, lower_eq hlow h.1]
    split
    · rename_i hless
      obtain ⟨hfound, hle, hleast⟩ := ih h.1 h.2
      refine ⟨.inr ?_, by omega, ?_⟩
      · rcases hfound with heq | ⟨hmem, hzero⟩
        · rw [heq]
          exact ⟨by simp, hless.1⟩
        · exact ⟨List.mem_cons_of_mem x hmem, hzero⟩
      · rw [List.forall_mem_cons]
        exact ⟨fun _ => hle, hleast⟩
    · rename_i hkept
      obtain ⟨hfound, hle, hleast⟩ := ih hlow h.2
      refine ⟨hfound.imp_right (And.imp_left (List.mem_cons_of_mem x)), hle, ?_⟩
      rw [List.forall_mem_cons]
      refine ⟨fun hzero => ?_, hleast⟩
      have hnot : ¬x.rank < low.rank := fun hlt => hkept ⟨hzero, hlt⟩
      omega

theorem foldl_higher (hhigh : high.isNaN = false) (h : ∀ x ∈ xs, x.isNaN = false) :
    (xs.foldl higher high = high ∨ xs.foldl higher high ∈ xs) ∧
      high.rank ≤ (xs.foldl higher high).rank ∧
      ∀ x ∈ xs, x.rank ≤ (xs.foldl higher high).rank := by
  induction xs generalizing high with
  | nil => simp
  | cons x xs ih =>
    rw [List.forall_mem_cons] at h
    rw [List.foldl_cons, higher_eq hhigh h.1]
    split
    · rename_i hless
      obtain ⟨hfound, hle, hgreatest⟩ := ih h.1 h.2
      refine ⟨.inr ?_, by omega, List.forall_mem_cons.mpr ⟨hle, hgreatest⟩⟩
      rcases hfound with heq | hmem
      · rw [heq]
        simp
      · exact List.mem_cons_of_mem x hmem
    · obtain ⟨hfound, hle, hgreatest⟩ := ih hhigh h.2
      exact ⟨hfound.imp_right (List.mem_cons_of_mem x), hle,
        List.forall_mem_cons.mpr ⟨by omega, hgreatest⟩⟩

/-- One of some numbers that is not zero, and the least of those. -/
structure IsLeastNonzero (xs : List Binary64) (x : Binary64) : Prop where
  mem : x ∈ xs
  isZero : x.isZero = false
  le : ∀ y ∈ xs, y.isZero = false → x.toRat ≤ y.toRat

/-- One of some numbers, and the greatest of them. -/
structure IsGreatest (xs : List Binary64) (x : Binary64) : Prop where
  mem : x ∈ xs
  le : ∀ y ∈ xs, y.toRat ≤ x.toRat

theorem leastNonzero_eq (xs : List Binary64) : leastNonzero xs =
    if (xs.foldl lower (.infinity false)).isFinite then xs.foldl lower (.infinity false)
    else .zero := rfl

theorem greatestOf_eq (xs : List Binary64) : greatestOf xs =
    if (xs.foldl higher (.infinity true)).isFinite then xs.foldl higher (.infinity true)
    else .zero := rfl

theorem leastNonzero_cases (h : ∀ x ∈ xs, x.isFinite = true) :
    IsLeastNonzero xs (leastNonzero xs) ∨
      (∀ x ∈ xs, x.isZero = true) ∧ leastNonzero xs = .zero := by
  have hinfinity : (Binary64.infinity false).isNaN = false := rfl
  obtain ⟨hfound, -, hleast⟩ := foldl_lower hinfinity
    fun x hx => Binary64.isNaN_of_isFinite (h x hx)
  rw [leastNonzero_eq]
  rcases hfound with hnone | ⟨hmem, hzero⟩
  · refine .inr ⟨fun x hx => ?_, by rw [hnone]; rfl⟩
    -- a number that is not zero would have been found, as it is below the infinity
    by_contra hnonzero
    rw [Bool.not_eq_true] at hnonzero
    have hle := hleast x hx hnonzero
    have hbound := (Binary64.rank_bounds_of_isFinite (h x hx)).2
    rw [hnone] at hle
    exact absurd (Int.lt_of_le_of_lt hle hbound) (Int.lt_irrefl _)
  · rw [if_pos (h _ hmem)]
    exact .inl ⟨hmem, hzero, fun y hy hne =>
      (Binary64.toRat_le_iff (h _ hmem) (h y hy)).mpr (hleast y hy hne)⟩

theorem greatestOf_isGreatest (hne : xs ≠ []) (h : ∀ x ∈ xs, x.isFinite = true) :
    IsGreatest xs (greatestOf xs) := by
  have hinfinity : (Binary64.infinity true).isNaN = false := rfl
  obtain ⟨hfound, -, hgreatest⟩ := foldl_higher hinfinity
    fun x hx => Binary64.isNaN_of_isFinite (h x hx)
  have hmem : xs.foldl higher (.infinity true) ∈ xs := by
    refine hfound.resolve_left fun hnone => ?_
    obtain ⟨x, hx⟩ := List.exists_mem_of_ne_nil xs hne
    have hle := hgreatest x hx
    have hbound := (Binary64.rank_bounds_of_isFinite (h x hx)).1
    rw [hnone] at hle
    exact absurd (Int.lt_of_lt_of_le hbound hle) (Int.lt_irrefl _)
  rw [greatestOf_eq, if_pos (h _ hmem)]
  exact ⟨hmem, fun y hy => (Binary64.toRat_le_iff (h y hy) (h _ hmem)).mpr (hgreatest y hy)⟩

end Rollup
end EventQuery
