import EventQuery.Json.Reader
import EventQuery.Proofs.Text.Digit

/-!
# EventQuery.Proofs.Json.Spelling

Numbers in JSON text. A `Spelling` is a number in decimal notation: digits, the digits of a fraction
and a power of ten. The reader takes a spelling from the front of a text, up to what cannot go on
with it, and rounds the decimal that it stands for (`value?_spelling`).
-/

namespace EventQuery
namespace Json

open Text

/-! ## Spellings -/

/-- A number in decimal notation, with a fraction or a power of ten. -/
structure Spelling where
  whole : List Char
  fraction : List Char
  /-- Whether the power of ten is negative, and its digits. -/
  power : Option (Bool × List Char)
  whole_digits : Digits whole
  whole_plain : whole = ['0'] ∨ ∃ c rest, whole = c :: rest ∧ c ≠ '0'
  fraction_digits : Digits fraction
  power_digits : ∀ negative digits, power = some (negative, digits) → Digits digits ∧ digits ≠ []
  not_whole : fraction ≠ [] ∨ power ≠ none

namespace Spelling

def fractionChars (n : Spelling) : List Char :=
  if n.fraction.isEmpty then [] else '.' :: n.fraction

def powerChars (n : Spelling) : List Char :=
  match n.power with
  | none => []
  | some (negative, digits) => 'e' :: (if negative then '-' else '+') :: digits

def chars (n : Spelling) : List Char := n.whole ++ n.fractionChars ++ n.powerChars

def coefficient (n : Spelling) : Nat := numberOf (n.whole ++ n.fraction)

def exponent (n : Spelling) : Int :=
  (match n.power with
    | none => 0
    | some (negative, digits) => if negative then -(numberOf digits : Int) else numberOf digits)
    - n.fraction.length

end Spelling

/-- A text that does not go on with a part of a number. -/
def NoNumber (rest : List Char) : Prop :=
  ∀ c ∈ rest.head?, c.isDigit = false ∧ c ≠ '.' ∧ c ≠ 'e' ∧ c ≠ 'E'

theorem NoNumber.noDigit {rest : List Char} (h : NoNumber rest) : NoDigit rest :=
  fun c hc => (h c hc).1

/-! ## The parts of a number -/

variable {n : Spelling} {rest : List Char}

theorem whole?_append (hrest : NoDigit rest) :
    whole? (n.whole ++ rest) = some (n.whole, rest) := by
  have hdigits := n.whole_digits
  rcases n.whole_plain with hzero | ⟨c, ds, hwhole, hc⟩
  · rw [hzero]
    rfl
  · have hne : n.whole.isEmpty = false := by rw [hwhole]; rfl
    unfold whole?
    split
    · rename_i heq
      rw [hwhole] at heq
      cases heq
      exact absurd rfl hc
    · dsimp only
      rw [takeWhile_digits hdigits hrest, dropWhile_digits hdigits hrest, hne]
      rfl

theorem fraction_of_ne (hpoint : ∀ c ∈ rest.head?, c ≠ '.') :
    fraction rest = ([], rest) := by
  unfold fraction
  split
  · exact absurd rfl (hpoint '.' rfl)
  · rfl

theorem fraction_append (hrest : NoDigit rest)
    (hpoint : ∀ c ∈ rest.head?, c ≠ '.') :
    fraction (n.fractionChars ++ rest) = (n.fractionChars, rest) := by
  unfold Spelling.fractionChars
  split
  · exact fraction_of_ne hpoint
  · rename_i hne
    have hpart : fraction ('.' :: (n.fraction ++ rest)) =
        if ((n.fraction ++ rest).takeWhile Char.isDigit).isEmpty then
          ([], '.' :: (n.fraction ++ rest))
        else ('.' :: (n.fraction ++ rest).takeWhile Char.isDigit,
          (n.fraction ++ rest).dropWhile Char.isDigit) := rfl
    rw [takeWhile_digits n.fraction_digits hrest, dropWhile_digits n.fraction_digits hrest,
      if_neg hne] at hpart
    exact hpart

theorem exponent_append (hrest : NoNumber rest) :
    exponent (n.powerChars ++ rest) = (n.powerChars, rest) := by
  unfold Spelling.powerChars
  split
  · cases rest with
    | nil => rfl
    | cons c rest =>
      obtain ⟨_, _, he, hE⟩ := hrest c rfl
      simp [exponent, he, hE]
  · rename_i negative digits hpower
    obtain ⟨hdigits, hne⟩ := n.power_digits negative digits hpower
    have hempty : digits.isEmpty = false := by simpa using hne
    -- the sign only decides which character is dropped
    cases negative <;>
      simp [exponent, takeWhile_digits hdigits hrest.noDigit,
        dropWhile_digits hdigits hrest.noDigit, hempty]

theorem exponent?_powerChars (n : Spelling) :
    Numeral.exponent? n.powerChars = some (n.exponent + n.fraction.length) := by
  unfold Spelling.powerChars Spelling.exponent
  cases hpower : n.power with
  | none => simp [Numeral.exponent?]
  | some power =>
    obtain ⟨negative, digits⟩ := power
    obtain ⟨hdigits, hne⟩ := n.power_digits negative digits hpower
    have hall : digits.all Char.isDigit = true := List.all_eq_true.mpr hdigits
    cases negative <;> simp [Numeral.exponent?, Numeral.splitSign, hall, hne]

/-- What follows the fraction neither goes on with it nor begins another. -/
theorem powerChars_append_head (n : Spelling) (hrest : NoNumber rest) :
    NoDigit (n.powerChars ++ rest) ∧ ∀ c ∈ (n.powerChars ++ rest).head?, c ≠ '.' := by
  unfold Spelling.powerChars
  split
  · exact ⟨hrest.noDigit, fun c hc => (hrest c hc).2.1⟩
  · refine ⟨fun c hc => ?_, fun c hc => ?_⟩
    · cases hc
      rfl
    · cases hc
      decide

theorem noDigit_fractionChars_append (n : Spelling) (hrest : NoDigit rest) :
    NoDigit (n.fractionChars ++ rest) := by
  unfold Spelling.fractionChars
  split
  · exact hrest
  · intro c hc
    cases hc
    rfl

theorem whole_isEmpty (n : Spelling) : n.whole.isEmpty = false := by
  rcases n.whole_plain with h | ⟨c, rest, h, _⟩
  · rw [h]
    rfl
  · rw [h]
    rfl

theorem decimal?_chars (n : Spelling) :
    Numeral.decimal? n.chars = some (n.coefficient, n.exponent) := by
  have hnil : NoNumber [] := by
    intro c hc
    cases hc
  obtain ⟨hpower, hpoint⟩ := powerChars_append_head n hnil
  rw [List.append_nil] at hpower hpoint
  have hrest := noDigit_fractionChars_append n hpower
  unfold Numeral.decimal? Spelling.chars
  rw [List.append_assoc, takeWhile_digits n.whole_digits hrest,
    dropWhile_digits n.whole_digits hrest]
  split
  rename_i fraction rest heq
  -- the parts that the reader finds are those of the spelling, with a point or without
  obtain ⟨rfl, rfl⟩ : fraction = n.fraction ∧ rest = n.powerChars := by
    by_cases hempty : n.fraction = []
    · have hchars : n.fractionChars ++ n.powerChars = n.powerChars := by
        simp [Spelling.fractionChars, hempty]
      rw [hchars] at heq
      split at heq
      · rename_i hchars
        rw [hchars] at hpoint
        exact absurd rfl (hpoint '.' rfl)
      · cases heq
        exact ⟨hempty.symm, rfl⟩
    · have hchars : n.fractionChars ++ n.powerChars = '.' :: (n.fraction ++ n.powerChars) := by
        simp [Spelling.fractionChars, hempty]
      rw [hchars] at heq
      split at heq
      · rename_i hsome
        cases hsome
        rw [takeWhile_digits n.fraction_digits hpower, dropWhile_digits n.fraction_digits hpower]
          at heq
        cases heq
        exact ⟨rfl, rfl⟩
      · rename_i hnone
        exact absurd rfl (hnone _)
  dsimp only
  rw [whole_isEmpty, exponent?_powerChars]
  simp [Spelling.coefficient]

theorem unsigned?_spelling (n : Spelling) (negative : Bool) (hrest : NoNumber rest) :
    unsigned? negative (n.chars ++ rest)
      = some (.float (.ofDecimal negative n.coefficient n.exponent), rest) := by
  have hpower := powerChars_append_head n hrest
  have hreal : (n.fractionChars.isEmpty && n.powerChars.isEmpty) = false := by
    rcases n.not_whole with h | h
    · simp [Spelling.fractionChars, h]
    · cases hp : n.power with
      | none => exact absurd hp h
      | some power => simp [Spelling.powerChars, hp]
  have hdecimal := decimal?_chars n
  unfold Spelling.chars at hdecimal ⊢
  unfold unsigned?
  rw [List.append_assoc, List.append_assoc,
    whole?_append (noDigit_fractionChars_append n hpower.1)]
  simp only [Option.bind_eq_bind, Option.bind_some]
  rw [fraction_append hpower.1 hpower.2]
  dsimp only
  rw [exponent_append hrest]
  dsimp only
  rw [hreal, hdecimal]
  rfl

/-! ## Numbers among other values -/

theorem chars_eq_cons (n : Spelling) : ∃ c rest, n.chars = c :: rest ∧ c.isDigit = true := by
  rcases n.whole_plain with h | ⟨c, rest, h, _⟩
  · exact ⟨'0', n.fractionChars ++ n.powerChars, by simp [Spelling.chars, h], rfl⟩
  · refine ⟨c, rest ++ n.fractionChars ++ n.powerChars, by simp [Spelling.chars, h], ?_⟩
    exact n.whole_digits c (by simp [h])

/-- No word goes on like a number. -/
theorem word?_digit {c : Char} (hc : c.isDigit = true) (rest : List Char) :
    word? (c :: rest) = none ∧ word? ('-' :: c :: rest) = none := by
  have hne : ∀ x : Char, x.isDigit = false → x ≠ c := fun x hx => (ne_of_isDigit hc hx).symm
  constructor
  · simp [word?, after?, hne 'n' rfl, hne 't' rfl, hne 'f' rfl, hne 'N' rfl, hne 'I' rfl,
      hne '-' rfl]
  · simp [word?, after?, hne 'I' rfl]

theorem value?_digit {c : Char} (hc : c.isDigit = true) (depth : Nat) (rest : List Char) :
    value? (depth + 1) (c :: rest) = unsigned? false (c :: rest) := by
  obtain ⟨hword, _⟩ := word?_digit hc rest
  have hne : ∀ {x : Char} {tail : List Char}, c :: rest = x :: tail → x.isDigit = true := by
    intro x tail heq
    cases heq
    exact hc
  unfold value?
  split
  · rename_i heq
    cases hne heq
  · rename_i heq
    cases hne heq
  · rename_i heq
    cases hne heq
  · rw [hword]
    dsimp only
    split
    · rename_i heq
      cases hne heq
    · rfl

theorem value?_minus {c : Char} (hc : c.isDigit = true) (depth : Nat) (rest : List Char) :
    value? (depth + 1) ('-' :: c :: rest) = unsigned? true (c :: rest) := by
  obtain ⟨_, hword⟩ := word?_digit hc rest
  unfold value?
  split
  · rename_i heq
    cases heq
  · rename_i heq
    cases heq
  · rename_i heq
    cases heq
  · rw [hword]
    rfl

/-- The reader takes a spelling from the front of a text, with its sign. -/
theorem value?_spelling (n : Spelling) (negative : Bool) (depth : Nat) (hrest : NoNumber rest) :
    value? (depth + 1) ((if negative then '-' :: n.chars else n.chars) ++ rest)
      = some (.float (.ofDecimal negative n.coefficient n.exponent), rest) := by
  have hread := unsigned?_spelling n negative hrest
  obtain ⟨c, tail, hchars, hc⟩ := chars_eq_cons n
  rw [hchars] at hread ⊢
  cases negative with
  | false => exact (value?_digit hc depth _).trans hread
  | true => exact (value?_minus hc depth _).trans hread

end Json
end EventQuery
