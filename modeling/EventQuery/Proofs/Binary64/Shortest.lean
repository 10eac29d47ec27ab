import EventQuery.Binary64.Shortest
import EventQuery.Proofs.Binary64.Nearest

/-!
# EventQuery.Proofs.Binary64.Shortest

The shortest decimal of a place rounds to it (`readsAs_shortest`). Whatever grid it was found on,
only a decimal between the midpoints is taken, and the exact decimal of the place is one.
-/

namespace EventQuery
namespace Binary64

theorem readsAs_of_readsBackOn {place c : Nat} {grid : Int} (h : readsBackOn place grid = some c) :
    ReadsAs c grid place := by
  unfold readsBackOn at h
  extract_lets scale step value low high fits below above at h
  have hfits : fits c = true := by
    split at h
    · cases h
    · rename_i hbelow _
      rw [← Option.some.inj h]
      exact hbelow
    · rename_i _ habove
      rw [← Option.some.inj h]
      exact habove
    · -- both neighbours of the value fit, and a tie goes to one of them
      rename_i hbelow habove
      split at h
      · rw [← Option.some.inj h]
        exact hbelow
      · split at h
        · rw [← Option.some.inj h]
          exact habove
        · rw [← Option.some.inj h]
          rcases Nat.mod_two_eq_zero_or_one below with heven | hodd
          · rw [heven]
            exact hbelow
          · rw [hodd]
            exact habove
  have hstep : c * step = 2 * (c * tenTo grid.toNat * unitsPerOne) := by
    show c * (2 * unitsPerOne * tenTo grid.toNat) = _
    ring
  unfold fits at hfits
  rw [hstep] at hfits
  split at hfits
  · rename_i heven
    obtain ⟨hlow, hhigh⟩ := Bool.and_eq_true_iff.mp hfits
    exact ⟨of_decide_eq_true hlow, of_decide_eq_true hhigh, fun hodd => by omega,
      fun hodd => by omega⟩
  · obtain ⟨hlow, hhigh⟩ := Bool.and_eq_true_iff.mp hfits
    have hlow := of_decide_eq_true hlow
    have hhigh := of_decide_eq_true hhigh
    exact ⟨hlow.le, hhigh.le, fun _ => hlow.ne, fun _ => hhigh.ne⟩

theorem tenTo_eq (n : Nat) : tenTo n = Nat.pow 5 n * twoTo n := Nat.mul_pow 5 2 n

theorem readsAs_exact {place : Nat} (hplace : 0 < place) :
    ReadsAs (exact place).1 (exact place).2 place := by
  have h : ∀ n, RoundsTo (magnitude place * Nat.pow 5 n * 1 * twoTo n) (tenTo n) place := by
    intro n
    have hnum : magnitude place * Nat.pow 5 n * 1 * twoTo n = magnitude place * tenTo n := by
      rw [tenTo_eq, Nat.mul_one, Nat.mul_assoc]
    rw [hnum]
    exact roundsTo_magnitude hplace (tenTo_pos n)
  exact h 1074

theorem readsAs_shortest {place : Nat} (hplace : 0 < place) :
    ReadsAs (shortest place).1 (shortest place).2 place := by
  unfold shortest
  extract_lets exponent onGrid
  cases hfound : (List.range 17).findSome? onGrid with
  | none => exact readsAs_exact hplace
  | some found =>
    obtain ⟨k, _, hk⟩ := List.exists_of_findSome?_eq_some hfound
    obtain ⟨c, hc, rfl⟩ := Option.map_eq_some_iff.mp hk
    exact readsAs_of_readsBackOn hc

end Binary64
end EventQuery
