import EventQuery.Proofs.Filter.NaturalOrder
import EventQuery.Proofs.Reduction.Group

/-!
# EventQuery.Proofs.Reduction.Keyed

Values in the order of a key. What a comparison by a key prefers over all others has the least key
(`exists_best_eq`). If no two values have one key, then it is the same value in whatever order they
come (`Prefers.best_eq_of_perm`), and the distinct values are each of them once
(`nodup_distinct_of_same`), so that only their order can differ (`Keyed.distinct_perm`).
-/

namespace EventQuery
namespace Reduction

variable {β : Type} [LinearOrder β] {key : Value → β} {op : Operator} {values values' : List Value}

/-- A comparison that holds of the values with a smaller key. -/
def Prefers (op : Operator) (key : Value → β) (values : List Value) : Prop :=
  ∀ u ∈ values, ∀ v ∈ values, op.holds u v = .ok (decide (key u < key v))

theorem Prefers.mono (h : Prefers op key values) (hsub : values' ⊆ values) :
    Prefers op key values' :=
  fun u hu v hv => h u (hsub hu) v (hsub hv)

theorem exists_bestFrom_eq {b : Value} (h : Prefers op key (b :: values)) :
    ∃ v ∈ b :: values, (∀ u ∈ b :: values, key v ≤ key u) ∧ bestFrom op b values = .ok v := by
  induction values generalizing b with
  | nil => exact ⟨b, by simp, by simp, rfl⟩
  | cons a rest ih =>
    have hab := h a (by simp) b (by simp)
    -- the best of the rest is no worse than the better of the first two
    by_cases hbetter : key a < key b
    · obtain ⟨v, hv, hleast, heq⟩ := ih (b := a) (h.mono (List.subset_cons_self b _))
      refine ⟨v, List.mem_cons_of_mem b hv, ?_, by simpa [bestFrom, hab, hbetter] using heq⟩
      exact List.forall_mem_cons.mpr ⟨(hleast a (by simp)).trans hbetter.le, hleast⟩
    · have hsub : b :: rest ⊆ b :: a :: rest :=
        List.cons_subset_cons b (List.subset_cons_self a rest)
      obtain ⟨v, hv, hleast, heq⟩ := ih (b := b) (h.mono hsub)
      obtain ⟨hvb, hrest⟩ := List.forall_mem_cons.mp hleast
      refine ⟨v, hsub hv, ?_, by simpa [bestFrom, hab, hbetter] using heq⟩
      exact List.forall_mem_cons.mpr
        ⟨hvb, List.forall_mem_cons.mpr ⟨hvb.trans (not_lt.mp hbetter), hrest⟩⟩

theorem exists_best_eq (h : Prefers op key values) (hne : values ≠ []) :
    ∃ v ∈ values, (∀ u ∈ values, key v ≤ key u) ∧ best op values = .ok v := by
  cases values with
  | nil => exact absurd rfl hne
  | cons b rest => exact exists_bestFrom_eq h

/-- The best value of a list does not depend on its order, if no two are equally good. -/
theorem Prefers.best_eq_of_perm (h : Prefers op key values)
    (hinj : ∀ u ∈ values, ∀ v ∈ values, key u = key v → u = v) (hperm : values'.Perm values) :
    best op values' = best op values := by
  by_cases hne : values = []
  · subst hne
    rw [List.perm_nil.mp hperm]
  · have hne' : values' ≠ [] := by
      rintro rfl
      exact hne (List.nil_perm.mp hperm)
    obtain ⟨v, hv, hleast, heq⟩ := exists_best_eq h hne
    obtain ⟨v', hv', hleast', heq'⟩ := exists_best_eq (h.mono hperm.subset) hne'
    have hmem := hperm.mem_iff.mp hv'
    have hkeys : key v' = key v :=
      le_antisymm (hleast' v (hperm.mem_iff.mpr hv)) (hleast v' hmem)
    rw [heq, heq', hinj v' hmem v hv hkeys]

/-- Where equality tells all values apart, each of them is listed once. -/
theorem nodup_distinct_of_same
    (h : ∀ u ∈ values, ∀ v ∈ values, u.same v = true ↔ u = v) :
    (distinct values).Nodup ∧ ∀ v, v ∈ distinct values ↔ v ∈ values := by
  have hsub := (distinct_sublist values).subset
  constructor
  · refine (pairwise_distinct values).imp_of_mem fun {u v} hu hv hapart huv => ?_
    have hsame := (h u (hsub hu) v (hsub hv)).mpr huv
    rw [Apart, hsame] at hapart
    cases hapart
  · refine fun v => ⟨fun hv => hsub hv, fun hv => ?_⟩
    obtain ⟨u, hu, huv⟩ := exists_mem_distinct hv
    rcases huv with rfl | hsame
    · exact hu
    · exact (h u (hsub hu) v hv).mp hsame ▸ hu

/-- Values that are equal and ordered as their keys are, no two of one key. -/
structure Keyed (key : Value → β) (values : List Value) : Prop where
  stands : ∀ u ∈ values, ∀ v ∈ values, u.Stands v (cmp (key u) (key v))
  eq_of_key : ∀ u ∈ values, ∀ v ∈ values, key u = key v → u = v

namespace Keyed

theorem of_perm (h : Keyed key values) (hperm : values'.Perm values) : Keyed key values' where
  stands u hu v hv := h.stands u (hperm.subset hu) v (hperm.subset hv)
  eq_of_key u hu v hv := h.eq_of_key u (hperm.subset hu) v (hperm.subset hv)

theorem same_iff (h : Keyed key values) {u v : Value} (hu : u ∈ values) (hv : v ∈ values) :
    u.same v = true ↔ u = v := by
  rw [(h.stands u hu v hv).same_eq, beq_iff_eq, cmp_eq_eq_iff]
  exact ⟨h.eq_of_key u hu v hv, congrArg key⟩

theorem prefers_lt (h : Keyed key values) : Prefers .lt key values := by
  intro u hu v hv
  rw [(h.stands u hu v hv).holds_eq, Operator.accepts_cmp]
  rfl

/-- The greatest is the least in the opposite order. -/
theorem prefers_gt (h : Keyed key values) :
    Prefers .gt (fun v => OrderDual.toDual (key v)) values := by
  intro u hu v hv
  rw [(h.stands u hu v hv).holds_eq, Operator.accepts_cmp]
  rfl

section Perm

variable (h : Keyed key values) (hperm : values'.Perm values)
include h hperm

theorem best_lt_of_perm : best .lt values' = best .lt values :=
  h.prefers_lt.best_eq_of_perm h.eq_of_key hperm

theorem best_gt_of_perm : best .gt values' = best .gt values :=
  h.prefers_gt.best_eq_of_perm
    (fun u hu v hv huv => h.eq_of_key u hu v hv (OrderDual.toDual.injective huv)) hperm

theorem distinct_perm : (distinct values').Perm (distinct values) := by
  obtain ⟨hnodup, hmem⟩ := nodup_distinct_of_same fun u hu v hv => h.same_iff hu hv
  obtain ⟨hnodup', hmem'⟩ :=
    nodup_distinct_of_same fun u hu v hv => (h.of_perm hperm).same_iff hu hv
  refine (List.perm_ext_iff_of_nodup hnodup' hnodup).mpr fun v => ?_
  rw [hmem', hmem, hperm.mem_iff]

end Perm
end Keyed
end Reduction
end EventQuery
