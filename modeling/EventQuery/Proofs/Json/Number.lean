import EventQuery.Json.Printer
import EventQuery.Proofs.Binary64.Shortest
import EventQuery.Proofs.Json.Spelling
import Mathlib.Data.List.TakeWhile

/-!
# EventQuery.Proofs.Json.Number

Doubles come back from their JSON text (`value?_numberText`). What is printed for a finite double is
a sign and a spelling of its shortest decimal (`spelled_text`); however it is laid out, it stands for
a number that rounds to the same place.
-/

namespace EventQuery
namespace Json

open Text Binary64

/-! ## The layout of a decimal -/

/-- Digits, and the exponent of the first, of a decimal that rounds to a place. -/
structure Leading (place : Nat) (digits : List Char) (exponent : Int) : Prop where
  all_digits : Digits digits
  plain : ∃ c rest, digits = c :: rest ∧ c ≠ '0'
  readsAs : ReadsAs (numberOf digits) (exponent + 1 - digits.length) place

/-- A text is a spelling of a decimal that rounds to a place. -/
def Spelled (place : Nat) (chars : List Char) : Prop :=
  ∃ n : Spelling, chars = n.chars ∧ ReadsAs n.coefficient n.exponent place

/-- Digits before and after a point. -/
theorem spelled_pointed {place : Nat} {whole fraction : List Char} (hwhole : Digits whole)
    (hplain : whole = ['0'] ∨ ∃ c rest, whole = c :: rest ∧ c ≠ '0') (hfraction : Digits fraction)
    (hne : fraction ≠ [])
    (h : ReadsAs (numberOf (whole ++ fraction)) (0 - fraction.length) place) :
    Spelled place (whole ++ '.' :: fraction) := by
  refine ⟨⟨whole, fraction, none, hwhole, hplain, hfraction, by simp, .inl hne⟩, ?_, h⟩
  simp [Spelling.chars, Spelling.fractionChars, Spelling.powerChars, hne]

theorem toDigits_eq_leading (c : Nat) (e : Int) :
    ∃ k, Nat.toDigits 10 c = (leadingDigits (c, e)).1 ++ List.replicate k '0' := by
  refine ⟨((Nat.toDigits 10 c).reverse.takeWhile (· == '0')).length, ?_⟩
  have hzeros : (Nat.toDigits 10 c).reverse.takeWhile (· == '0') = List.replicate _ '0' :=
    List.eq_replicate_of_mem fun b hb => by simpa using List.mem_takeWhile_imp hb
  have hsplit : (Nat.toDigits 10 c).reverse = (Nat.toDigits 10 c).reverse.takeWhile (· == '0')
      ++ (Nat.toDigits 10 c).reverse.dropWhile (· == '0') := List.takeWhile_append_dropWhile.symm
  rw [hzeros, List.reverse_eq_append_iff, List.reverse_replicate] at hsplit
  exact hsplit

theorem leading_leadingDigits {place c : Nat} {e : Int} (h : ReadsAs c e place)
    (hplace : 0 < place) : Leading place (leadingDigits (c, e)).1 (leadingDigits (c, e)).2 := by
  obtain ⟨first, rest, hfirst, hne⟩ := toDigits_eq_cons (h.pos hplace)
  obtain ⟨k, hk⟩ := toDigits_eq_leading c e
  have hexponent : (leadingDigits (c, e)).2 = e + (Nat.toDigits 10 c).length - 1 := rfl
  rw [hexponent]
  generalize (leadingDigits (c, e)).1 = digits at hk ⊢
  refine ⟨(Digits.of_append (hk ▸ digits_toDigits c)).1, ?plain, ?readsAs⟩
  case plain =>
    rw [hfirst] at hk
    cases digits with
    | nil =>
      have hzero : first ∈ List.replicate k '0' := by
        rw [← List.nil_append (List.replicate k '0'), ← hk]
        exact List.mem_cons_self
      exact absurd (List.eq_of_mem_replicate hzero) hne
    | cons d ds =>
      obtain ⟨rfl, _⟩ := List.cons_eq_cons.mp hk
      exact ⟨first, ds, rfl, hne⟩
  case readsAs =>
    have hc : c = numberOf digits * tenTo k := by
      rw [← numberOf_append_zeros, ← hk, numberOf_toDigits]
    have hshift : e + (Nat.toDigits 10 c).length - 1 + 1 - digits.length = e + k := by
      rw [hk, List.length_append, List.length_replicate]
      omega
    rw [hshift, ← readsAs_mul_tenTo, ← hc]
    exact h

namespace Leading

variable {place : Nat} {digits : List Char} {exponent : Int}

/-- A number below one. -/
theorem spelled_small (h : Leading place digits exponent) (hneg : exponent < 0) :
    Spelled place (positional digits exponent) := by
  obtain ⟨hdigits, ⟨c, rest, hcons, _⟩, hreads⟩ := h
  have hpositional : positional digits exponent
      = ['0'] ++ '.' :: (List.replicate (-exponent - 1).toNat '0' ++ digits) := by
    simp [positional, hneg]
  have hcoefficient : numberOf (['0'] ++ (List.replicate (-exponent - 1).toNat '0' ++ digits))
      = numberOf digits := by
    rw [show ['0'] = List.replicate 1 '0' from rfl, numberOf_zeros_append, numberOf_zeros_append]
  have hexponent : (0 : Int) - (List.replicate (-exponent - 1).toNat '0' ++ digits).length
      = exponent + 1 - digits.length := by
    rw [List.length_append, List.length_replicate]
    omega
  rw [hpositional]
  refine spelled_pointed (digits_zeros 1) (.inl rfl) ((digits_zeros _).append hdigits)
    (by simp [hcons]) ?_
  rw [hcoefficient, hexponent]
  exact hreads

/-- A whole number. -/
theorem spelled_whole (h : Leading place digits exponent) (hnonneg : 0 ≤ exponent)
    (hlength : digits.length ≤ exponent.toNat + 1) :
    Spelled place (positional digits exponent ++ ['.', '0']) := by
  obtain ⟨hdigits, ⟨c, rest, hcons, hne⟩, hreads⟩ := h
  have hpositional : positional digits exponent
      = digits ++ List.replicate (exponent.toNat + 1 - digits.length) '0' := by
    simp [positional, Int.not_lt.mpr hnonneg, hlength]
  obtain ⟨k, hk⟩ : ∃ k, k = exponent.toNat + 1 - digits.length := ⟨_, rfl⟩
  have hcoefficient : numberOf (digits ++ List.replicate k '0' ++ ['0'])
      = numberOf digits * tenTo (k + 1) := by
    rw [List.append_assoc, show ['0'] = List.replicate 1 '0' from rfl,
      List.replicate_append_replicate, numberOf_append_zeros]
  have hexponent : (0 : Int) - ['0'].length + (k + 1 : Nat) = exponent + 1 - digits.length := by
    rw [List.length_singleton]
    omega
  rw [hpositional, ← hk]
  refine spelled_pointed (hdigits.append (digits_zeros k))
    (.inr ⟨c, rest ++ List.replicate k '0', by rw [hcons]; rfl, hne⟩) (digits_zeros 1) (by simp) ?_
  -- the zeros behind the digits, on both sides of the point, go into the exponent
  rw [hcoefficient]
  refine readsAs_mul_tenTo.mpr ?_
  rw [hexponent]
  exact hreads

/-- Digits on both sides of the point. -/
theorem spelled_mixed (h : Leading place digits exponent) (hnonneg : 0 ≤ exponent)
    (hlength : exponent.toNat + 1 < digits.length) :
    Spelled place (positional digits exponent) := by
  obtain ⟨hdigits, ⟨c, rest, hcons, hne⟩, hreads⟩ := h
  have hpositional : positional digits exponent
      = digits.take (exponent.toNat + 1) ++ '.' :: digits.drop (exponent.toNat + 1) := by
    have hpadding : exponent.toNat + 1 - digits.length = 0 := by omega
    simp [positional, Int.not_lt.mpr hnonneg, Nat.not_le.mpr hlength, hpadding]
  have hsplit : digits.take (exponent.toNat + 1) ++ digits.drop (exponent.toNat + 1) = digits :=
    List.take_append_drop _ _
  have hparts := Digits.of_append (hsplit.symm ▸ hdigits)
  have hfraction : digits.drop (exponent.toNat + 1) ≠ [] := by
    rw [Ne, List.drop_eq_nil_iff]
    omega
  have hexponent : (0 : Int) - (digits.drop (exponent.toNat + 1)).length
      = exponent + 1 - digits.length := by
    rw [List.length_drop]
    omega
  rw [hpositional]
  refine spelled_pointed hparts.1
    (.inr ⟨c, rest.take exponent.toNat, by rw [hcons]; rfl, hne⟩) hparts.2 hfraction ?_
  rw [hsplit, hexponent]
  exact hreads

theorem spelled_scientific (h : Leading place digits exponent) :
    Spelled place (scientific digits exponent) := by
  obtain ⟨hdigits, ⟨c, rest, rfl, hne⟩, hreads⟩ := h
  obtain ⟨hfirst, hrest⟩ := Digits.of_append (a := [c]) (b := rest) hdigits
  obtain ⟨power, hpower⟩ : ∃ power, power = List.replicate
      (2 - (Nat.toDigits 10 exponent.natAbs).length) '0' ++ Nat.toDigits 10 exponent.natAbs :=
    ⟨_, rfl⟩
  have hpowerDigits : Digits power := by
    rw [hpower]
    exact (digits_zeros _).append (digits_toDigits _)
  have hpowerNe : power ≠ [] := by simp [hpower, Nat.toDigits_ne_nil]
  refine ⟨⟨[c], rest, some (decide (exponent < 0), power), hfirst, .inr ⟨c, [], rfl, hne⟩, hrest,
    ?_, .inr (by simp)⟩, ?_, ?_⟩
  · rintro _ _ ⟨⟩
    exact ⟨hpowerDigits, hpowerNe⟩
  · simp [scientific, Spelling.chars, Spelling.fractionChars, Spelling.powerChars, hpower]
  · have hnumber : numberOf power = exponent.natAbs := by
      rw [hpower, numberOf_zeros_append, numberOf_toDigits]
    have hexponent : (if decide (exponent < 0) then -(numberOf power : Int) else numberOf power)
        - rest.length = exponent + 1 - (c :: rest).length := by
      rw [hnumber, List.length_cons]
      by_cases hneg : exponent < 0
      · rw [if_pos (decide_eq_true hneg)]
        omega
      · rw [if_neg (by simpa using hneg)]
        omega
    show ReadsAs (numberOf (c :: rest))
      ((if decide (exponent < 0) then -(numberOf power : Int) else numberOf power) - rest.length)
      place
    rw [hexponent]
    exact hreads

end Leading

/-- The magnitude at a place as it is written. -/
theorem spelled_text {place : Nat} (hplace : 0 < place) :
    Spelled place (if -4 ≤ (leadingDigits (shortest place)).2
        && (leadingDigits (shortest place)).2 < 16 then
      withPoint (positional (leadingDigits (shortest place)).1 (leadingDigits (shortest place)).2)
    else scientific (leadingDigits (shortest place)).1 (leadingDigits (shortest place)).2) := by
  have h := leading_leadingDigits (readsAs_shortest hplace) hplace
  generalize (leadingDigits (shortest place)).1 = digits at h ⊢
  generalize (leadingDigits (shortest place)).2 = exponent at h ⊢
  split
  · by_cases hneg : exponent < 0
    · have hpoint : withPoint (positional digits exponent) = positional digits exponent := by
        simp [withPoint, positional, hneg]
      rw [hpoint]
      exact h.spelled_small hneg
    · have hnonneg : 0 ≤ exponent := Int.not_lt.mp hneg
      by_cases hlength : digits.length ≤ exponent.toNat + 1
      · have hpoint : withPoint (positional digits exponent)
            = positional digits exponent ++ ['.', '0'] := by
          have hdigits : Digits (positional digits exponent) := by
            simpa [positional, hneg, hlength] using h.all_digits.append (digits_zeros _)
          have hno : (positional digits exponent).contains '.' = false := by
            rw [List.contains_eq_mem, decide_eq_false_iff_not]
            exact fun hmem => absurd (hdigits '.' hmem) (by decide)
          rw [withPoint, hno]
          rfl
        rw [hpoint]
        exact h.spelled_whole hnonneg hlength
      · have hpoint : withPoint (positional digits exponent) = positional digits exponent := by
          simp [withPoint, positional, hneg, hlength]
        rw [hpoint]
        exact h.spelled_mixed hnonneg (Nat.lt_of_not_le hlength)
  · exact h.spelled_scientific

/-- A finite double is written as a sign and a spelling that is read back as it. -/
theorem exists_spelling {place : Fin (infinityPlace + 1)} (hfin : place.val < infinityPlace) :
    ∃ n : Spelling, (∀ negative, numberText (.signed negative place)
        = String.ofList (if negative then '-' :: n.chars else n.chars)) ∧
      ∀ negative, ofDecimal negative n.coefficient n.exponent = .signed negative place := by
  have hinf : ∀ negative, numberText (.signed negative place)
      = (Binary64.signed negative place).text := by
    intro negative
    have hfinite : (Binary64.signed negative place).isInfinite = false := by
      simp [isInfinite, hfin.ne]
    rw [numberText, hfinite]
    rfl
  have hbody : ∀ (finite : Nat → List Char) (negative : Bool),
      signedText finite (.signed negative place)
        = String.ofList (if negative then '-' :: finite place.val else finite place.val) := by
    intro finite negative
    simp [signedText, hfin.ne]
  rcases Nat.eq_zero_or_pos place.val with hzero | hpos
  · refine ⟨⟨['0'], ['0'], none, digits_zeros 1, .inl rfl, digits_zeros 1, by simp,
      .inl (by simp)⟩, fun negative => ?_, fun negative => ?_⟩
    · rw [hinf, text, hbody, if_pos hzero]
      rfl
    · have hplace : place = ⟨0, Nat.succ_pos _⟩ := Fin.ext hzero
      rw [hplace]
      exact ofDecimal_zero negative
  · obtain ⟨n, hchars, hreads⟩ := spelled_text hpos
    refine ⟨n, fun negative => ?_, fun negative => ofDecimal_eq hreads hpos hfin negative⟩
    rw [hinf, text, hbody, if_neg hpos.ne', ← hchars]

/-! ## Doubles -/

/-- No number begins with a space. -/
theorem numberText_eq_cons (x : Binary64) :
    ∃ c rest, (numberText x).toList = c :: rest ∧ isSpace c = false := by
  cases x with
  | nan => exact ⟨'N', ['a', 'N'], rfl, rfl⟩
  | signed negative place =>
    by_cases hfin : place.val < infinityPlace
    · obtain ⟨n, htext, _⟩ := exists_spelling hfin
      obtain ⟨c, rest, hchars, hc⟩ := chars_eq_cons n
      have hspace : isSpace c = false := by
        simp [isSpace, ne_of_isDigit hc (x := ' ') rfl, ne_of_isDigit hc (x := '\t') rfl,
          ne_of_isDigit hc (x := '\n') rfl, ne_of_isDigit hc (x := '\r') rfl]
      rw [htext, String.toList_ofList, hchars]
      cases negative with
      | false => exact ⟨c, rest, rfl, hspace⟩
      | true => exact ⟨'-', c :: rest, rfl, rfl⟩
    · rw [signed_eq_infinity hfin]
      cases negative with
      | false => exact ⟨'I', "nfinity".toList, rfl, rfl⟩
      | true => exact ⟨'-', "Infinity".toList, rfl, rfl⟩

/-- Every double comes back from its text. -/
theorem value?_numberText (x : Binary64) (depth : Nat) {rest : List Char} (hrest : NoNumber rest) :
    value? (depth + 1) ((numberText x).toList ++ rest) = some (.float x, rest) := by
  cases x with
  | nan => rfl
  | signed negative place =>
    by_cases hfin : place.val < infinityPlace
    · obtain ⟨n, htext, hround⟩ := exists_spelling hfin
      rw [htext, String.toList_ofList, value?_spelling n negative depth hrest, hround]
    · rw [signed_eq_infinity hfin]
      cases negative with
      | false => rfl
      | true => rfl

end Json
end EventQuery
