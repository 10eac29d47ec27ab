/-!
# EventQuery.Assoc

Lists of named values in the order in which the names came, each name once.
-/

namespace EventQuery
namespace Assoc

variable {α : Type}

/-- Gives a name a value: in its place if the name is there, else at the end. -/
def set (key : String) (v : α) : List (String × α) → List (String × α)
  | [] => [(key, v)]
  | (k, w) :: rest => if k == key then (k, v) :: rest else (k, w) :: set key v rest

/-- Names in the order of their first occurrence, each with its last value. -/
def ofList (pairs : List (String × α)) : List (String × α) :=
  pairs.foldl (fun r (k, v) => set k v r) []

theorem lookup_set_self (key : String) (v : α) (xs : List (String × α)) :
    (set key v xs).lookup key = some v := by
  induction xs with
  | nil => simp [set]
  | cons x rest ih =>
    obtain ⟨k, w⟩ := x
    by_cases h : k = key
    · subst h; simp [set]
    · have hne : (key == k) = false := by simpa using fun e => h e.symm
      simp [set, h, List.lookup_cons, hne, ih]

theorem lookup_set_of_ne {key other : String} (h : other ≠ key) (v : α)
    (xs : List (String × α)) : (set key v xs).lookup other = xs.lookup other := by
  induction xs with
  | nil => simp [set, List.lookup_cons, beq_false_of_ne h]
  | cons x rest ih =>
    obtain ⟨k, w⟩ := x
    by_cases hk : k = key
    · subst hk
      have hne : (other == k) = false := by simpa using h
      simp [set, List.lookup_cons, hne]
    · simp [set, hk, List.lookup_cons, ih]

end Assoc
end EventQuery
