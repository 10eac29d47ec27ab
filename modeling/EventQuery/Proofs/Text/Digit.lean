import EventQuery.Power
import EventQuery.Text.Digit
import Mathlib.Data.Nat.Basic
import Mathlib.Tactic.Ring

/-!
# EventQuery.Proofs.Text.Digit

Runs of the digits `0` to `9` (`Digits`), and the numbers that they write.
-/

namespace EventQuery
namespace Text

/-! ## Runs of digits -/

def Digits (ds : List Char) : Prop := ∀ c ∈ ds, c.isDigit = true

/-- A text that does not go on with a digit. -/
def NoDigit (rest : List Char) : Prop := ∀ c ∈ rest.head?, c.isDigit = false

theorem ne_of_isDigit {c x : Char} (hc : c.isDigit = true) (hx : x.isDigit = false) : c ≠ x := by
  rintro rfl
  rw [hc] at hx
  cases hx

theorem Digits.append {a b : List Char} (ha : Digits a) (hb : Digits b) : Digits (a ++ b) := by
  intro c hc
  rcases List.mem_append.mp hc with hc | hc
  · exact ha c hc
  · exact hb c hc

theorem Digits.of_append {a b : List Char} (h : Digits (a ++ b)) : Digits a ∧ Digits b :=
  ⟨fun c hc => h c (List.mem_append_left b hc), fun c hc => h c (List.mem_append_right a hc)⟩

theorem digits_zeros (n : Nat) : Digits (List.replicate n '0') := by
  intro c hc
  rw [List.eq_of_mem_replicate hc]
  rfl

theorem digits_toDigits (n : Nat) : Digits (Nat.toDigits 10 n) :=
  fun _ hc => Nat.isDigit_of_mem_toDigits (by decide) (by decide) hc

theorem takeWhile_digits {ds rest : List Char} (hds : Digits ds) (hrest : NoDigit rest) :
    (ds ++ rest).takeWhile Char.isDigit = ds := by
  rw [List.takeWhile_append_of_pos hds]
  cases rest with
  | nil => simp
  | cons c rest =>
    have hc : c.isDigit = false := hrest c rfl
    simp [hc]

theorem dropWhile_digits {ds rest : List Char} (hds : Digits ds) (hrest : NoDigit rest) :
    (ds ++ rest).dropWhile Char.isDigit = rest := by
  rw [List.dropWhile_append_of_pos hds]
  cases rest with
  | nil => rfl
  | cons c rest =>
    have hc : c.isDigit = false := hrest c rfl
    simp [hc]

/-! ## Numbers -/

theorem numberOf_append (a b : List Char) :
    numberOf (a ++ b) = numberOf a * tenTo b.length + numberOf b := by
  have hfrom : ∀ (b : List Char) (start : Nat),
      b.foldl (fun n c => 10 * n + (digitValue? c).getD 0) start
        = start * tenTo b.length + numberOf b := by
    intro b
    induction b with
    | nil => intro start; simp [numberOf, tenTo]
    | cons c b ih =>
      intro start
      have hcons : numberOf (c :: b) = (10 * 0 + (digitValue? c).getD 0) * tenTo b.length
          + numberOf b := ih _
      rw [List.foldl_cons, ih, hcons, List.length_cons, tenTo_succ]
      ring
  show (a ++ b).foldl _ 0 = _
  rw [List.foldl_append, hfrom]
  rfl

theorem numberOf_zeros (n : Nat) : numberOf (List.replicate n '0') = 0 := by
  induction n with
  | zero => rfl
  | succ n ih =>
    rw [List.replicate_succ', numberOf_append, ih]
    rfl

theorem numberOf_zeros_append (n : Nat) (ds : List Char) :
    numberOf (List.replicate n '0' ++ ds) = numberOf ds := by
  rw [numberOf_append, numberOf_zeros, Nat.zero_mul, Nat.zero_add]

theorem numberOf_append_zeros (ds : List Char) (n : Nat) :
    numberOf (ds ++ List.replicate n '0') = numberOf ds * tenTo n := by
  rw [numberOf_append, numberOf_zeros, List.length_replicate, Nat.add_zero]

/-- The digits `0` to `9` are the first run of ten. -/
theorem digitValue?_digit {c : Char} (hc : c.isDigit = true) :
    digitValue? c = some (c.toNat - '0'.toNat) := by
  obtain ⟨hlow, hhigh⟩ : 48 ≤ c.toNat ∧ c.toNat ≤ 57 := Char.isDigit_iff_toNat.mp hc
  have hfirst : (decide (0x30 ≤ c.toNat) && decide (c.toNat < 0x30 + 10)) = true := by
    rw [Bool.and_eq_true, decide_eq_true_eq, decide_eq_true_eq]
    omega
  unfold digitValue? zeroDigits
  dsimp only
  rw [List.findSome?_cons, if_pos hfirst]
  rfl

theorem numberOf_digits {ds : List Char} (h : Digits ds) :
    numberOf ds = Nat.ofDigitChars 10 ds 0 := by
  have hfrom : ∀ start, ds.foldl (fun n c => 10 * n + (digitValue? c).getD 0) start
      = Nat.ofDigitChars 10 ds start := by
    induction ds with
    | nil => intro start; rfl
    | cons c ds ih =>
      intro start
      obtain ⟨hc, hds⟩ := List.forall_mem_cons.mp h
      rw [List.foldl_cons, Nat.ofDigitChars_cons, digitValue?_digit hc]
      exact ih hds _
  exact hfrom 0

theorem numberOf_toDigits (n : Nat) : numberOf (Nat.toDigits 10 n) = n := by
  rw [numberOf_digits (digits_toDigits n), Nat.ofDigitChars_ten_toDigits]

/-- Digits write less than the power of ten of their number. -/
theorem numberOf_lt {ds : List Char} (h : Digits ds) : numberOf ds < tenTo ds.length := by
  induction ds with
  | nil => decide
  | cons c ds ih =>
    obtain ⟨hc, hds⟩ := List.forall_mem_cons.mp h
    have hvalue : numberOf [c] ≤ 9 := by
      obtain ⟨_, hhigh⟩ : 48 ≤ c.toNat ∧ c.toNat ≤ 57 := Char.isDigit_iff_toNat.mp hc
      have hone : numberOf [c] = c.toNat - '0'.toNat := by
        simp [numberOf, digitValue?_digit hc]
      rw [hone, show '0'.toNat = 48 from rfl]
      omega
    have hrest := ih hds
    have hhead := Nat.mul_le_mul_right (tenTo ds.length) hvalue
    rw [← List.singleton_append, numberOf_append, List.length_append, List.length_singleton,
      Nat.add_comm 1, tenTo_succ]
    omega

/-- A fraction is cut behind some places: what is dropped is less than one of the last place. -/
theorem fractionOf_eq_div (places : Nat) {ds : List Char} (h : Digits ds) :
    fractionOf places ds = numberOf ds * tenTo places / tenTo ds.length := by
  have hzeros := numberOf_append_zeros ds places
  have hcut := List.take_append_drop places (ds ++ List.replicate places '0')
  have hlength : ((ds ++ List.replicate places '0').drop places).length = ds.length := by simp
  have hlow : Digits ((ds ++ List.replicate places '0').drop places) := by
    refine (Digits.of_append (a := (ds ++ List.replicate places '0').take places) ?_).2
    rw [hcut]
    exact h.append (digits_zeros places)
  rw [← hcut, numberOf_append, hlength] at hzeros
  have hlt := numberOf_lt hlow
  rw [hlength] at hlt
  rw [fractionOf, ← hzeros, Nat.mul_comm, Nat.mul_add_div (tenTo_pos ds.length),
    Nat.div_eq_of_lt hlt, Nat.add_zero]

/-- A positive number is written without a zero in front. -/
theorem toDigits_eq_cons {n : Nat} (h : 0 < n) :
    ∃ c rest, Nat.toDigits 10 n = c :: rest ∧ c ≠ '0' := by
  induction n using Nat.strongRecOn with
  | ind n ih =>
    rw [Nat.toDigits_eq_if (by decide)]
    split
    · rename_i hsmall
      have hne : ∀ n < 10, 0 < n → n.digitChar ≠ '0' := by decide
      exact ⟨n.digitChar, [], rfl, hne n hsmall h⟩
    · obtain ⟨c, rest, hdigits, hc⟩ := ih (n / 10) (by omega) (by omega)
      exact ⟨c, rest ++ [(n % 10).digitChar], by rw [hdigits]; rfl, hc⟩

end Text
end EventQuery
