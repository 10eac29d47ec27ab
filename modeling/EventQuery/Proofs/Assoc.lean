import Mathlib.Data.List.Nodup

/-!
# EventQuery.Proofs.Assoc

Lists of named values with each name once: a name that is there has one value, and that is the one
found (`lookup_of_mem`, `mem_of_lookup`).
-/

namespace EventQuery
namespace Assoc

variable {α : Type} {xs : List (String × α)} {name : String} {x : α}

theorem lookup_of_mem (hnodup : (xs.map Prod.fst).Nodup) (h : (name, x) ∈ xs) :
    xs.lookup name = some x := by
  induction xs with
  | nil => simp at h
  | cons y rest ih =>
    obtain ⟨other, y⟩ := y
    rw [List.map_cons, List.nodup_cons] at hnodup
    rcases List.mem_cons.mp h with heq | hrest
    · cases heq
      simp
    · have hne : name ≠ other := by
        rintro rfl
        exact hnodup.1 (List.mem_map.mpr ⟨(name, x), hrest, rfl⟩)
      rw [List.lookup_cons, beq_false_of_ne hne]
      exact ih hnodup.2 hrest

theorem mem_of_lookup (h : xs.lookup name = some x) : (name, x) ∈ xs := by
  obtain ⟨before, after, rfl, _⟩ := List.lookup_eq_some_iff.mp h
  simp

end Assoc
end EventQuery
