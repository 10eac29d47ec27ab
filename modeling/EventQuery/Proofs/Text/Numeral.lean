import EventQuery.Proofs.Text.Digit
import EventQuery.Text.Numeral

/-!
# EventQuery.Proofs.Text.Numeral

Texts that write integers in decimal: digits after an optional sign, blanks around them
(`WritesInteger`). The reader of real numbers takes all of their digits for one coefficient
(`real?_of_writesInteger`).
-/

namespace EventQuery

namespace Text

variable {drop : Char → Bool} {before s after : List Char}

/-! ## Blanks around a text -/

theorem dropWhile_eq_self (h : ∀ c, s.head? = some c → drop c = false) : s.dropWhile drop = s := by
  cases s with
  | nil => rfl
  | cons c rest => rw [List.dropWhile_cons_of_neg (by simp [h c rfl])]

/-- What is dropped on both sides of a text that neither begins nor ends with such. -/
theorem strip_append (hne : s ≠ []) (hbefore : ∀ c ∈ before, drop c = true)
    (hafter : ∀ c ∈ after, drop c = true) (hfirst : ∀ c, s.head? = some c → drop c = false)
    (hlast : ∀ c, s.getLast? = some c → drop c = false) :
    strip drop (before ++ s ++ after) = s := by
  have hhead (rest : List Char) : (s ++ rest).head? = s.head? := by
    cases s with
    | nil => exact absurd rfl hne
    | cons c rest => rfl
  have hfront : (before ++ s ++ after).dropWhile drop = s ++ after := by
    rw [List.append_assoc, List.dropWhile_append_of_pos hbefore, dropWhile_eq_self]
    rwa [hhead]
  have hback : (s ++ after).reverse.dropWhile drop = s.reverse := by
    rw [List.reverse_append, List.dropWhile_append_of_pos (by simpa using hafter),
      dropWhile_eq_self (by simpa using hlast)]
  rw [strip, hfront, hback, List.reverse_reverse]

theorem strip_eq_self (hfirst : ∀ c, s.head? = some c → drop c = false)
    (hlast : ∀ c, s.getLast? = some c → drop c = false) : strip drop s = s := by
  rcases List.eq_nil_or_concat s with rfl | ⟨_, _, rfl⟩
  · rfl
  · have hnone : ∀ c ∈ ([] : List Char), drop c = true := nofun
    simpa using strip_append (by simp) hnone hnone hfirst hlast

/-! ## The digits `0` to `9` -/

theorem forall_digit {p : Char → Prop} (h : ∀ n < 10, p (Char.ofNat ('0'.toNat + n))) {c : Char}
    (hc : c.isDigit = true) : p c := by
  obtain ⟨hlow, hhigh⟩ : 48 ≤ c.toNat ∧ c.toNat ≤ 57 := Char.isDigit_iff_toNat.mp hc
  have hplace : c.toNat = '0'.toNat + (c.toNat - 48) := by
    rw [show '0'.toNat = 48 from rfl]
    omega
  rw [← Char.ofNat_toNat c, hplace]
  exact h _ (by omega)

theorem plainDigit_digit {c : Char} (hc : c.isDigit = true) : plainDigit c = c :=
  forall_digit (p := fun c => plainDigit c = c) (by decide) hc

theorem toLower_digit {c : Char} (hc : c.isDigit = true) : c.toLower = c :=
  forall_digit (p := fun c => c.toLower = c) (by decide) hc

theorem isBlank_digit {c : Char} (hc : c.isDigit = true) : isBlank c = false :=
  forall_digit (p := fun c => isBlank c = false) (by decide) hc

end Text

namespace Numeral

open Text

/-- A sign in front of digits, or none; true for a minus. -/
inductive Sign : List Char → Bool → Prop where
  | none : Sign [] false
  | plus : Sign ['+'] false
  | minus : Sign ['-'] true

/-- A text that writes an integer in decimal: digits after an optional sign, and blanks around
them. -/
def WritesInteger (text : String) (n : Int) : Prop :=
  ∃ before sign digits after negative, text.toList = before ++ (sign ++ digits) ++ after ∧
    (∀ c ∈ before, isBlank c = true) ∧ (∀ c ∈ after, isBlank c = true) ∧ Sign sign negative ∧
    Digits digits ∧ digits ≠ [] ∧
    n = if negative then -(numberOf digits : Int) else numberOf digits

variable {s : List Char} {ds : List Char}

theorem dropJoints_eq_self (h : '_' ∉ s) (afterDigit : Bool) :
    dropJoints afterDigit s = some s := by
  induction s generalizing afterDigit with
  | nil => rfl
  | cons c rest ih =>
    rw [List.mem_cons, not_or] at h
    rw [dropJoints]
    · rw [ih h.2]
      rfl
    · exact fun hc => h.1 hc.symm

theorem decimal?_digits (hds : Digits ds) (hne : ds ≠ []) : decimal? ds = some (numberOf ds, 0) := by
  have hend : NoDigit [] := nofun
  have hwhole := takeWhile_digits hds hend
  have hrest := dropWhile_digits hds hend
  rw [List.append_nil] at hwhole hrest
  simp [decimal?, hwhole, hrest, hne, exponent?]

theorem realOf?_digits (hds : Digits ds) (hne : ds ≠ []) {negative : Bool}
    (hsign : splitSign s = (negative, ds)) :
    realOf? s = some (Binary64.ofDecimal negative (numberOf ds) 0) := by
  have hlower : ds.map Char.toLower = ds :=
    (List.map_congr_left fun c hc => toLower_digit (hds c hc)).trans (List.map_id ds)
  have hword (word : String) (hword : ¬Digits word.toList) : (String.ofList ds == word) = false := by
    rw [beq_eq_false_iff_ne]
    rintro rfl
    rw [String.toList_ofList] at hword
    exact hword hds
  rw [realOf?, hsign]
  dsimp only
  rw [hlower, hword "inf" (fun h => absurd (h 'i' (by simp)) (by decide)),
    hword "infinity" (fun h => absurd (h 'i' (by simp)) (by decide)),
    hword "nan" (fun h => absurd (h 'n' (by simp)) (by decide)), decimal?_digits hds hne]
  rfl

theorem splitSign_append {sign : List Char} {negative : Bool} (hsign : Sign sign negative)
    (hds : Digits ds) : splitSign (sign ++ ds) = (negative, ds) := by
  cases hsign with
  | none =>
    rw [List.nil_append]
    unfold splitSign
    split
    · exact absurd (hds '-' List.mem_cons_self) (by decide)
    · exact absurd (hds '+' List.mem_cons_self) (by decide)
    · rfl
  | plus => rfl
  | minus => rfl

/-- A sign and digits stay as they are when blanks, scripts and joints are seen to. -/
theorem plain?_signed {text : String} {before after sign : List Char} {negative : Bool}
    (htext : text.toList = before ++ (sign ++ ds) ++ after)
    (hbefore : ∀ c ∈ before, isBlank c = true) (hafter : ∀ c ∈ after, isBlank c = true)
    (hsign : Sign sign negative) (hds : Digits ds) (hne : ds ≠ []) :
    plain? text = some (sign ++ ds) := by
  have hmem : ∀ c ∈ sign ++ ds, isBlank c = false ∧ plainDigit c = c ∧ c ≠ '_' := by
    intro c hc
    rcases List.mem_append.mp hc with hc | hc
    · cases hsign with
      | none => cases hc
      | plus | minus =>
        rw [List.mem_singleton.mp hc]
        decide
    · have hdigit := hds c hc
      exact ⟨isBlank_digit hdigit, plainDigit_digit hdigit, ne_of_isDigit hdigit rfl⟩
  have hstrip : strip isBlank text.toList = sign ++ ds := by
    rw [htext]
    refine strip_append (by simp [hne]) hbefore hafter (fun c hc => ?_) (fun c hc => ?_)
    · exact (hmem c (List.mem_of_mem_head? hc)).1
    · exact (hmem c (List.mem_of_getLast? hc)).1
  have hplain : (sign ++ ds).map plainDigit = sign ++ ds :=
    (List.map_congr_left fun c hc => (hmem c hc).2.1).trans (List.map_id _)
  rw [plain?, hstrip, hplain]
  exact dropJoints_eq_self (fun h => (hmem '_' h).2.2 rfl) false

/-- An integer is read with all of its digits as one coefficient. -/
theorem real?_of_writesInteger {text : String} {n : Int} (h : WritesInteger text n) :
    ∃ negative, (if negative then n ≤ 0 else 0 ≤ n) ∧
      real? text = some (Binary64.ofDecimal negative n.natAbs 0) := by
  obtain ⟨before, sign, ds, after, negative, htext, hbefore, hafter, hsign, hds, hne, rfl⟩ := h
  have hreal : real? text = some (Binary64.ofDecimal negative (numberOf ds) 0) := by
    rw [real?, plain?_signed htext hbefore hafter hsign hds hne]
    exact realOf?_digits hds hne (splitSign_append hsign hds)
  refine ⟨negative, ?_, ?_⟩
  · cases negative <;> simp
  · rw [hreal]
    cases negative <;> simp

end Numeral
end EventQuery
