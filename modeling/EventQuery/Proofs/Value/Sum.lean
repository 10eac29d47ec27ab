import EventQuery.Proofs.Outcome
import EventQuery.Proofs.Value.Plain
import EventQuery.Value.Arithmetic

/-!
# EventQuery.Proofs.Value.Sum

Sums that leave the doubles. Integers and booleans add exactly, up to the first double; then their
total becomes a double, and so does every integer after it. `sum_eq_overflow_iff` says which lists
of values hold an integer there that is too large, and `mean_eq_overflow_iff` adds the mean of
integers only, which becomes a double at the end. Values that are no decimals fail in no other way,
unless they are of kinds that do not add.
-/

namespace EventQuery
namespace Value

open Outcome (Reaches)

/-- A value that counts as an integer in a sum. -/
def IsWhole (v : Value) : Prop := ∃ n, v.summand? = some n

def IsFloat (v : Value) : Prop := ∃ x, v = float x

def IsReal (v : Value) : Prop := v.IsWhole ∨ v.IsFloat

def wholeSum (values : List Value) : Int := (values.filterMap summand?).sum

/-- After integers only there is a double, and it comes too late for their total, or comes before an
integer that is too large. -/
def Overflows (start : Int) (values : List Value) : Prop :=
  ∃ wholes x rest, values = wholes ++ float x :: rest ∧ (∀ u ∈ wholes, u.IsWhole) ∧
    (Binary64.limit ≤ (start + wholeSum wholes).natAbs ∨
      ∃ v, Reaches IsReal rest v ∧ v.BeyondDouble)

variable {v : Value} {values : List Value} {x : Binary64} {m n : Int} {e : SumFailure}

theorem not_isWhole_float : ¬(float x).IsWhole := nofun

theorem isReal_float : (float x).IsReal := .inr ⟨x, rfl⟩

theorem beyondDouble_int : (int n).BeyondDouble ↔ Binary64.limit ≤ n.natAbs := by
  constructor
  · rintro ⟨k, hk, hlarge⟩
    cases hk
    exact hlarge
  · exact fun h => ⟨n, rfl, h⟩

theorem toDouble_eq_error_iff :
    toDouble n = .error e ↔ e = .beyondDouble ∧ Binary64.limit ≤ n.natAbs := by
  rw [← Binary64.ofInt?_eq_none_iff, toDouble]
  cases Binary64.ofInt? n with
  | none => simpa using eq_comm
  | some x => simp

theorem toDouble_cases (n : Int) :
    Binary64.limit ≤ n.natAbs ∧ toDouble n = .error .beyondDouble ∨
      ¬Binary64.limit ≤ n.natAbs ∧ ∃ x, toDouble n = .ok x := by
  cases h : toDouble n with
  | error e =>
    obtain ⟨rfl, hlarge⟩ := toDouble_eq_error_iff.mp h
    exact .inl ⟨hlarge, rfl⟩
  | ok x =>
    refine .inr ⟨fun hlarge => ?_, x, rfl⟩
    rw [toDouble_eq_error_iff.mpr ⟨rfl, hlarge⟩] at h
    cases h

/-! ## One addend -/

theorem summand_cases (v : Value) :
    (∃ n, v = int n) ∨ (∃ b, v = bool b) ∨ (∃ x, v = float x) ∨ ¬v.IsReal := by
  cases v with
  | int n => exact .inl ⟨n, rfl⟩
  | bool b => exact .inr (.inl ⟨b, rfl⟩)
  | float x => exact .inr (.inr (.inl ⟨x, rfl⟩))
  | _ =>
    refine .inr (.inr (.inr ?_))
    rintro (⟨_, h⟩ | ⟨_, h⟩)
    · cases h
    · cases h

theorem add_int_of_summand (h : v.summand? = some n) : add (int m) v = .ok (int (m + n)) := by
  have hm : (int m).summand? = some m := rfl
  unfold add
  rw [hm, h]

/-- A boolean is never too large. -/
theorem add_float_bool (x : Binary64) (b : Bool) : ∃ y, add (float x) (bool b) = .ok (float y) := by
  have hsmall : ∀ n ∈ [0, 1], ¬Binary64.limit ≤ (n : Int).natAbs := by decide +kernel
  have hadd : add (float x) (bool b)
      = (toDouble (if b then 1 else 0)).map fun y => float (x.add y) := rfl
  rw [hadd]
  rcases toDouble_cases (if b then 1 else 0) with ⟨hlarge, _⟩ | ⟨_, y, hy⟩
  · exact absurd hlarge (hsmall _ (by cases b <;> simp))
  · rw [hy]
    exact ⟨x.add y, rfl⟩

/-- What is neither an integer, a boolean nor a double does not add to one. -/
theorem add_of_not_isReal {total : Value} (htotal : total.IsReal) (hv : ¬v.IsReal)
    (hdecimal : v.isDecimal = false) :
    add total v = .error (.kinds total.kindName v.kindName) := by
  have hsummand : v.summand? = none := by
    cases hs : v.summand? with
    | none => rfl
    | some n => exact absurd (.inl ⟨n, hs⟩) hv
  rcases htotal with ⟨m, hm⟩ | ⟨x, rfl⟩
  · unfold add
    rw [hm, hsummand]
    cases v with
    | float y => exact absurd isReal_float hv
    | decimal d => cases hdecimal
    | _ => rfl
  · unfold add
    rw [hsummand]
    cases v with
    | float y => exact absurd isReal_float hv
    | decimal d => cases hdecimal
    | _ => rfl

theorem add_int_cases (m : Int) (hdecimal : v.isDecimal = false) :
    (∃ n, v.summand? = some n ∧ add (int m) v = .ok (int (m + n))) ∨
      (∃ x, v = float x ∧ (Binary64.limit ≤ m.natAbs ∧ add (int m) v = .error .beyondDouble ∨
        ¬Binary64.limit ≤ m.natAbs ∧ ∃ y, add (int m) v = .ok (float y))) ∨
      ¬v.IsReal ∧ ∃ left right, add (int m) v = .error (.kinds left right) := by
  rcases summand_cases v with ⟨n, rfl⟩ | ⟨b, rfl⟩ | ⟨x, rfl⟩ | hv
  · exact .inl ⟨n, rfl, add_int_of_summand rfl⟩
  · exact .inl ⟨_, rfl, add_int_of_summand rfl⟩
  · refine .inr (.inl ⟨x, rfl, ?_⟩)
    have hadd : add (int m) (float x) = (toDouble m).map fun a => float (a.add x) := rfl
    rcases toDouble_cases m with ⟨hlarge, hm⟩ | ⟨hsmall, a, hm⟩
    · exact .inl ⟨hlarge, by rw [hadd, hm]; rfl⟩
    · exact .inr ⟨hsmall, a.add x, by rw [hadd, hm]; rfl⟩
  · exact .inr (.inr ⟨hv, _, _, add_of_not_isReal (.inl ⟨m, rfl⟩) hv hdecimal⟩)

theorem add_float_cases (x : Binary64) (hdecimal : v.isDecimal = false) :
    v.BeyondDouble ∧ add (float x) v = .error .beyondDouble ∨
      ¬v.BeyondDouble ∧ v.IsReal ∧ (∃ y, add (float x) v = .ok (float y)) ∨
      ¬v.BeyondDouble ∧ ¬v.IsReal ∧
        ∃ left right, add (float x) v = .error (.kinds left right) := by
  rcases summand_cases v with ⟨n, rfl⟩ | ⟨b, rfl⟩ | ⟨a, rfl⟩ | hv
  · have hadd : add (float x) (int n) = (toDouble n).map fun b => float (x.add b) := rfl
    rw [beyondDouble_int, hadd]
    rcases toDouble_cases n with ⟨hlarge, hn⟩ | ⟨hsmall, b, hn⟩
    · exact .inl ⟨hlarge, by rw [hn]; rfl⟩
    · exact .inr (.inl ⟨hsmall, .inl ⟨n, rfl⟩, x.add b, by rw [hn]; rfl⟩)
  · exact .inr (.inl ⟨nofun, .inl ⟨_, rfl⟩, add_float_bool x b⟩)
  · exact .inr (.inl ⟨nofun, isReal_float, x.add a, rfl⟩)
  · refine .inr (.inr ⟨?_, hv, _, _, add_of_not_isReal isReal_float hv hdecimal⟩)
    rintro ⟨n, rfl, _⟩
    exact hv (.inl ⟨n, rfl⟩)

/-! ## Sums -/

theorem sumFrom_cons (total : Value) :
    sumFrom total (v :: values) = (add total v).bind fun total => sumFrom total values := by
  rw [sumFrom]
  cases add total v <;> rfl

theorem sumFrom_float_eq_overflow_iff (x : Binary64) (h : ∀ v ∈ values, v.isDecimal = false) :
    sumFrom (float x) values = .error .beyondDouble ↔
      ∃ v, Reaches IsReal values v ∧ v.BeyondDouble := by
  induction values generalizing x with
  | nil =>
    refine iff_of_false nofun ?_
    rintro ⟨v, hv, _⟩
    exact Outcome.not_reaches_nil hv
  | cons v rest ih =>
    rw [List.forall_mem_cons] at h
    rw [Outcome.exists_reaches_cons, sumFrom_cons]
    rcases add_float_cases x h.1 with ⟨hv, hadd⟩ | ⟨hv, hreal, y, hadd⟩ | ⟨hv, hreal, l, r, hadd⟩
    · rw [hadd]
      exact iff_of_true rfl (.inl hv)
    · rw [hadd, or_iff_right hv, and_iff_right hreal]
      exact ih y h.2
    · rw [hadd]
      refine iff_of_false nofun ?_
      rintro (hbeyond | ⟨hreal', _⟩)
      · exact hv hbeyond
      · exact hreal hreal'

/-- From a double on the total stays a double. -/
theorem sumFrom_float_eq_ok {x : Binary64} {total : Value}
    (h : ∀ v ∈ values, v.isDecimal = false) (hsum : sumFrom (float x) values = .ok total) :
    total.IsFloat := by
  induction values generalizing x with
  | nil =>
    cases hsum
    exact ⟨x, rfl⟩
  | cons v rest ih =>
    rw [List.forall_mem_cons] at h
    rw [sumFrom_cons] at hsum
    rcases add_float_cases x h.1 with ⟨_, hadd⟩ | ⟨_, _, y, hadd⟩ | ⟨_, _, l, r, hadd⟩
    · rw [hadd] at hsum
      cases hsum
    · rw [hadd] at hsum
      exact ih h.2 hsum
    · rw [hadd] at hsum
      cases hsum

theorem overflows_cons_of_summand (h : v.summand? = some n) :
    Overflows m (v :: values) ↔ Overflows (m + n) values := by
  constructor
  · rintro ⟨wholes, x, rest, hvalues, hwholes, hlate⟩
    cases wholes with
    | nil =>
      cases hvalues
      cases h
    | cons u wholes =>
      cases hvalues
      rw [List.forall_mem_cons] at hwholes
      have hsum : wholeSum (v :: wholes) = n + wholeSum wholes := by simp [wholeSum, h]
      rw [hsum, ← Int.add_assoc] at hlate
      exact ⟨wholes, x, rest, rfl, hwholes.2, hlate⟩
  · rintro ⟨wholes, x, rest, rfl, hwholes, hlate⟩
    have hsum : wholeSum (v :: wholes) = n + wholeSum wholes := by simp [wholeSum, h]
    refine ⟨v :: wholes, x, rest, rfl, List.forall_mem_cons.mpr ⟨⟨n, h⟩, hwholes⟩, ?_⟩
    rw [hsum, ← Int.add_assoc]
    exact hlate

theorem overflows_cons_float : Overflows m (float x :: values) ↔
    Binary64.limit ≤ m.natAbs ∨ ∃ v, Reaches IsReal values v ∧ v.BeyondDouble := by
  constructor
  · rintro ⟨wholes, y, rest, hvalues, hwholes, hlate⟩
    cases wholes with
    | nil =>
      cases hvalues
      simpa [wholeSum] using hlate
    | cons u wholes =>
      cases hvalues
      exact absurd (hwholes (float x) (by simp)) not_isWhole_float
  · exact fun hlate => ⟨[], x, values, rfl, by simp, by simpa [wholeSum] using hlate⟩

theorem not_overflows_cons (h : ¬v.IsReal) : ¬Overflows m (v :: values) := by
  rintro ⟨wholes, x, rest, hvalues, hwholes, _⟩
  cases wholes with
  | nil =>
    cases hvalues
    exact h isReal_float
  | cons u wholes =>
    cases hvalues
    exact h (.inl (hwholes _ (by simp)))

theorem sumFrom_int_eq_overflow_iff (m : Int) (h : ∀ v ∈ values, v.isDecimal = false) :
    sumFrom (int m) values = .error .beyondDouble ↔ Overflows m values := by
  induction values generalizing m with
  | nil =>
    refine iff_of_false nofun ?_
    rintro ⟨wholes, x, rest, hnil, _⟩
    simp at hnil
  | cons v rest ih =>
    rw [List.forall_mem_cons] at h
    rw [sumFrom_cons]
    rcases add_int_cases m h.1 with ⟨n, hn, hadd⟩ | ⟨x, rfl, hfloat⟩ | ⟨hreal, l, r, hadd⟩
    · rw [hadd, overflows_cons_of_summand hn]
      exact ih (m + n) h.2
    · rw [overflows_cons_float]
      rcases hfloat with ⟨hlarge, hadd⟩ | ⟨hsmall, y, hadd⟩
      · rw [hadd]
        exact iff_of_true rfl (.inl hlarge)
      · rw [hadd, or_iff_right hsmall]
        exact sumFrom_float_eq_overflow_iff y h.2
    · rw [hadd]
      exact iff_of_false nofun (not_overflows_cons hreal)

/-- Values that are no decimals add to an integer or a double, or fail in one of two ways. -/
theorem sumFrom_cases {total : Value} (htotal : (∃ m, total = int m) ∨ total.IsFloat)
    (h : ∀ v ∈ values, v.isDecimal = false) :
    (∃ t, sumFrom total values = .ok t) ∨ sumFrom total values = .error .beyondDouble ∨
      ∃ left right, sumFrom total values = .error (.kinds left right) := by
  induction values generalizing total with
  | nil => exact .inl ⟨total, rfl⟩
  | cons v rest ih =>
    rw [List.forall_mem_cons] at h
    rw [sumFrom_cons]
    rcases htotal with ⟨m, rfl⟩ | ⟨x, rfl⟩
    · rcases add_int_cases m h.1 with
        ⟨n, _, hadd⟩ | ⟨_, _, ⟨_, hadd⟩ | ⟨_, y, hadd⟩⟩ | ⟨_, l, r, hadd⟩
      · rw [hadd]
        exact ih (.inl ⟨m + n, rfl⟩) h.2
      · exact .inr (.inl (by rw [hadd]; rfl))
      · rw [hadd]
        exact ih (.inr ⟨y, rfl⟩) h.2
      · exact .inr (.inr ⟨l, r, by rw [hadd]; rfl⟩)
    · rcases add_float_cases x h.1 with ⟨_, hadd⟩ | ⟨_, _, y, hadd⟩ | ⟨_, _, l, r, hadd⟩
      · exact .inr (.inl (by rw [hadd]; rfl))
      · rw [hadd]
        exact ih (.inr ⟨y, rfl⟩) h.2
      · exact .inr (.inr ⟨l, r, by rw [hadd]; rfl⟩)

/-- The total is an integer while there are integers only, and then becomes a double. -/
theorem sumFrom_int_of_isWhole (h : ∀ v ∈ values, v.IsWhole) :
    sumFrom (int m) values = .ok (int (m + wholeSum values)) := by
  induction values generalizing m with
  | nil => simp [sumFrom, wholeSum]
  | cons v rest ih =>
    obtain ⟨⟨n, hn⟩, hrest⟩ := List.forall_mem_cons.mp h
    have hsum : wholeSum (v :: rest) = n + wholeSum rest := by simp [wholeSum, hn]
    rw [sumFrom, add_int_of_summand hn, hsum, ← Int.add_assoc]
    exact ih hrest

theorem sumFrom_int_eq_ok {total : Value} (h : ∀ v ∈ values, v.isDecimal = false)
    (hother : ¬∀ v ∈ values, v.IsWhole) (hsum : sumFrom (int m) values = .ok total) :
    total.IsFloat := by
  induction values generalizing m with
  | nil => exact absurd (by simp) hother
  | cons v rest ih =>
    rw [List.forall_mem_cons] at h hother
    rw [sumFrom_cons] at hsum
    rcases add_int_cases m h.1 with
      ⟨n, hn, hadd⟩ | ⟨_, _, ⟨_, hadd⟩ | ⟨_, y, hadd⟩⟩ | ⟨_, l, r, hadd⟩
    · rw [hadd] at hsum
      exact ih h.2 (fun hrest => hother ⟨⟨n, hn⟩, hrest⟩) hsum
    · rw [hadd] at hsum
      cases hsum
    · rw [hadd] at hsum
      exact sumFrom_float_eq_ok h.2 hsum
    · rw [hadd] at hsum
      cases hsum

theorem sum_eq_overflow_iff (h : ∀ v ∈ values, v.isDecimal = false) :
    sum values = .error .beyondDouble ↔ Overflows 0 values := sumFrom_int_eq_overflow_iff 0 h

theorem sum_ne_undefined (h : ∀ v ∈ values, v.isDecimal = false) :
    sum values ≠ .error .undefinedDecimal := by
  rw [sum]
  rcases sumFrom_cases (.inl ⟨0, rfl⟩) h with ⟨t, ht⟩ | hbeyond | ⟨l, r, hkinds⟩
  · rw [ht]
    nofun
  · rw [hbeyond]
    nofun
  · rw [hkinds]
    nofun

/-! ## Means -/

/-- Integers whose mean is too large for a double. -/
def MeanOverflows (values : List Value) : Prop :=
  values ≠ [] ∧ (∀ v ∈ values, v.IsWhole) ∧
    Binary64.limit * values.length ≤ (wholeSum values).natAbs

theorem dividedBy_int_eq_error_iff {count : Nat} (hcount : 0 < count) :
    (int n).dividedBy count = .error e ↔
      e = .beyondDouble ∧ Binary64.limit * count ≤ n.natAbs := by
  have hfinite : (Binary64.ofRat (mkRat n count)).isFinite = true ↔
      ¬Binary64.limit * count ≤ n.natAbs := by
    have hpos : (0 : Rat) < count := by exact_mod_cast hcount
    rw [Binary64.isFinite_ofRat_iff, Rat.mkRat_eq_div, abs_div, abs_of_pos hpos,
      div_lt_iff₀ hpos, ← Int.cast_abs, Int.abs_eq_natAbs, not_le]
    exact_mod_cast Iff.rfl
  simp only [dividedBy]
  by_cases hlarge : Binary64.limit * count ≤ n.natAbs
  · rw [if_neg (by rw [hfinite]; exact not_not_intro hlarge), and_iff_left hlarge]
    simpa using eq_comm
  · rw [if_pos (hfinite.mpr hlarge)]
    exact iff_of_false nofun fun h => hlarge h.2

theorem mean_of_sum_eq_error (h : sum values = .error e) : mean values = .error e := by
  cases values with
  | nil => cases h
  | cons v rest => simp only [mean, h]

theorem mean_of_sum_eq_ok {total : Value} (hvalues : values ≠ []) (h : sum values = .ok total) :
    mean values = total.dividedBy values.length := by
  cases values with
  | nil => exact absurd rfl hvalues
  | cons v rest => simp only [mean, h]

/-- A mean fails as the sum does, or at the division of an integer. -/
theorem mean_eq_error_iff (h : ∀ v ∈ values, v.isDecimal = false) :
    mean values = .error e ↔ sum values = .error e ∨ e = .beyondDouble ∧ MeanOverflows values := by
  by_cases hvalues : values = []
  · subst hvalues
    exact iff_of_false nofun fun hmean => hmean.elim nofun fun hmean => hmean.2.1 rfl
  · by_cases hwhole : ∀ v ∈ values, v.IsWhole
    · have hsum : sum values = .ok (int (0 + wholeSum values)) := sumFrom_int_of_isWhole hwhole
      have hcount : 0 < values.length := List.length_pos_iff.mpr hvalues
      rw [mean_of_sum_eq_ok hvalues hsum, dividedBy_int_eq_error_iff hcount, hsum,
        or_iff_right nofun, Int.zero_add]
      exact and_congr_right fun _ =>
        ⟨fun hlarge => ⟨hvalues, hwhole, hlarge⟩, fun hmean => hmean.2.2⟩
    · rw [or_iff_left fun hmean => hwhole hmean.2.2.1]
      cases hsum : sum values with
      | error e' => rw [mean_of_sum_eq_error hsum]
      | ok total =>
        obtain ⟨y, rfl⟩ := sumFrom_int_eq_ok h hwhole hsum
        rw [mean_of_sum_eq_ok hvalues hsum]
        exact iff_of_false nofun nofun

theorem mean_eq_overflow_iff (h : ∀ v ∈ values, v.isDecimal = false) :
    mean values = .error .beyondDouble ↔ Overflows 0 values ∨ MeanOverflows values := by
  rw [mean_eq_error_iff h, sum_eq_overflow_iff h, and_iff_right rfl]

theorem mean_ne_undefined (h : ∀ v ∈ values, v.isDecimal = false) :
    mean values ≠ .error .undefinedDecimal := by
  rw [ne_eq, mean_eq_error_iff h]
  rintro (hsum | ⟨he, _⟩)
  · exact sum_ne_undefined h hsum
  · cases he

end Value
end EventQuery
