import EventQuery.Proofs.Value.Equality
import EventQuery.Reduction.Register
import Mathlib.Data.List.Induction

/-!
# EventQuery.Proofs.Reduction.Register

A register against one scan over all its values. The index holds the values that can be keys with
their places (`Indexed`), which every entry keeps, and no other value can equal a key; so a number
is found where the scan finds it (`Indexed.number_eq`), and a value is entered if and only if none
of the values equals it (`Indexed.values_enter`).
-/

namespace EventQuery
namespace Register

variable {r : Register}

/-- The index holds the values that can be keys, each with its place. -/
def Indexed (r : Register) : Prop := r.index = r.values.zipIdx.filter (·.1.isKey)

theorem indexed_empty : empty.Indexed := rfl

/-- The place of the first value with a property, in a list with its places, counted from one on. -/
theorem find?_zipIdx (p : Value → Bool) (values : List Value) (start : Nat) :
    (((values.zipIdx start).find? (p ·.1)).map (·.2)).getD (start + values.length)
      = start + values.findIdx p := by
  induction values generalizing start with
  | nil => rfl
  | cons v rest ih =>
    have hlength : start + (v :: rest).length = start + 1 + rest.length := by
      rw [List.length_cons]
      omega
    rw [List.zipIdx_cons, List.find?_cons, List.findIdx_cons, hlength]
    dsimp only
    cases p v with
    | true => rfl
    | false =>
      dsimp only
      rw [ih, cond_false]
      omega

theorem Indexed.number_eq (h : r.Indexed) (v : Value) :
    r.number v = r.values.findIdx (·.same v) := by
  unfold number
  split
  · rename_i hkey
    -- among all the values only keys can equal the key
    have hfind : r.index.find? (·.1.same v) = r.values.zipIdx.find? (·.1.same v) := by
      rw [h, List.find?_filter]
      congr 1
      funext e
      rw [Bool.eq_iff_iff, decide_eq_true_eq]
      exact ⟨And.right, fun hsame => ⟨(Value.isKey_eq_of_same hsame).trans hkey, hsame⟩⟩
    have hplace := find?_zipIdx (·.same v) r.values 0
    rw [Nat.zero_add, Nat.zero_add] at hplace
    rw [hfind, hplace]
  · rfl

/-- The next number is for values that equal none. -/
theorem Indexed.number_eq_length_iff (h : r.Indexed) {v : Value} :
    r.number v = r.values.length ↔ (r.values.any (·.same v)) = false := by
  rw [h.number_eq, List.findIdx_eq_length, List.any_eq_false]
  simp

theorem Indexed.enter (h : r.Indexed) (v : Value) : (r.enter v).Indexed := by
  unfold Register.enter
  split
  · unfold Indexed
    dsimp only
    rw [List.zipIdx_append, List.filter_append, ← h]
    cases hkey : v.isKey <;> simp [hkey]
  · exact h

theorem Indexed.values_enter (h : r.Indexed) (v : Value) :
    (r.enter v).values = if r.values.any (·.same v) then r.values else r.values ++ [v] := by
  unfold Register.enter
  by_cases hold : (r.values.any (·.same v)) = true
  · rw [if_neg (by simp [h.number_eq_length_iff, hold]), if_pos hold]
  · rw [if_pos (h.number_eq_length_iff.mpr (by simpa using hold)), if_neg hold]

theorem indexed_foldl (values : List Value) : (values.foldl Register.enter empty).Indexed := by
  induction values using List.reverseRecOn with
  | nil => exact indexed_empty
  | append_singleton values v ih =>
    rw [List.foldl_concat]
    exact ih.enter v

end Register
end EventQuery
