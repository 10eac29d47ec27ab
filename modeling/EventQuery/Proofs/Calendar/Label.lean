import EventQuery.Proofs.Calendar.Grid
import EventQuery.Proofs.Text.Digit
import Mathlib.Data.List.Basic

/-!
# EventQuery.Proofs.Calendar.Label

The names of grid points, read back. The parts of a label are cut at its marks, the numbers are
read from their digits and the month from its name (`cut`, `padded_inj`, `monthName_inj`). What a
label leaves out is known from the grid, so it names one grid point of its interval only
(`label_inj`).
-/

namespace EventQuery
namespace Calendar

open Text

/-! ## Parts of a label -/

theorem append_cons_inj {c : Char} {a b a' b' : List Char} (ha : c ∉ a) (ha' : c ∉ a')
    (h : a ++ c :: b = a' ++ c :: b') : a = a' ∧ b = b' := by
  induction a generalizing a' with
  | nil =>
    cases a' with
    | nil => exact ⟨rfl, (List.cons.inj h).2⟩
    | cons x a' =>
      have hc := (List.cons.inj h).1
      exact absurd (List.mem_cons.mpr (.inl hc)) ha'
  | cons x a ih =>
    cases a' with
    | nil =>
      have hc := (List.cons.inj h).1
      exact absurd (List.mem_cons.mpr (.inl hc.symm)) ha
    | cons y a' =>
      obtain ⟨hxy, hrest⟩ := List.cons.inj h
      obtain ⟨haa, hbb⟩ := ih (fun hc => ha (List.mem_cons_of_mem x hc))
        (fun hc => ha' (List.mem_cons_of_mem y hc)) hrest
      exact ⟨by rw [hxy, haa], hbb⟩

/-- Texts are cut at the first of a mark. -/
theorem cut {c : Char} {mark a b a' b' : String} (hmark : mark.toList = [c]) (ha : c ∉ a.toList)
    (ha' : c ∉ a'.toList) (h : a ++ (mark ++ b) = a' ++ (mark ++ b')) : a = a' ∧ b = b' := by
  have hlists := congrArg String.toList h
  simp only [String.toList_append, hmark, List.singleton_append] at hlists
  obtain ⟨hfirst, hrest⟩ := append_cons_inj ha ha' hlists
  exact ⟨String.toList_inj.mp hfirst, String.toList_inj.mp hrest⟩

theorem not_mem_of_digits {c : Char} {ds : List Char} (h : Digits ds) (hc : c.isDigit = false) :
    c ∉ ds := by
  intro hmem
  rw [h c hmem] at hc
  cases hc

theorem toList_padded (width : Nat) {n : Int} (h : 0 ≤ n) :
    ∃ zeros, (padded width n).toList = List.replicate zeros '0' ++ Nat.toDigits 10 n.toNat := by
  obtain ⟨k, rfl⟩ := Int.eq_ofNat_of_zero_le h
  refine ⟨width - (Nat.toDigits 10 k).length, ?_⟩
  have hsign : ¬(k : Int) < 0 := by omega
  simp [padded, hsign]

theorem digits_padded (width : Nat) {n : Int} (h : 0 ≤ n) : Digits (padded width n).toList := by
  obtain ⟨zeros, hzeros⟩ := toList_padded width h
  rw [hzeros]
  exact (digits_zeros zeros).append (digits_toDigits _)

theorem padded_inj {width : Nat} {n m : Int} (hn : 0 ≤ n) (hm : 0 ≤ m)
    (h : padded width n = padded width m) : n = m := by
  obtain ⟨zeros, hzeros⟩ := toList_padded width hn
  obtain ⟨zeros', hzeros'⟩ := toList_padded width hm
  have hnumbers : numberOf (padded width n).toList = numberOf (padded width m).toList := by rw [h]
  rw [hzeros, hzeros', numberOf_zeros_append, numberOf_zeros_append, numberOf_toDigits,
    numberOf_toDigits] at hnumbers
  omega

theorem toList_year {y : Int} (h : 0 ≤ y) : (toString y).toList = Nat.toDigits 10 y.toNat := by
  obtain ⟨k, rfl⟩ := Int.eq_ofNat_of_zero_le h
  have hwhole : toString (k : Int) = toString k := rfl
  rw [hwhole, Nat.toString_eq_ofList_toDigits]
  simp

theorem digits_year {y : Int} (h : 0 ≤ y) : Digits (toString y).toList := by
  rw [toList_year h]
  exact digits_toDigits _

theorem year_inj {y z : Int} (hy : 0 ≤ y) (hz : 0 ≤ z) (h : toString y = toString z) : y = z := by
  have hnumbers : numberOf (toString y).toList = numberOf (toString z).toList := by rw [h]
  rw [toList_year hy, toList_year hz, numberOf_toDigits, numberOf_toDigits] at hnumbers
  omega

end Calendar

namespace Interval

open Calendar Text

variable {i : Interval} {s s' : Int}

theorem monthName_inj {m k : Nat} (hm : 1 ≤ m ∧ m ≤ 12) (hk : 1 ≤ k ∧ k ≤ 12)
    (h : monthName m = monthName k) : m = k := by
  have hall : ∀ m < 12, ∀ k < 12, monthName (m + 1) = monthName (k + 1) → m = k := by decide
  have hpred := hall (m - 1) (by omega) (k - 1) (by omega)
  rw [Nat.sub_add_cancel hm.1, Nat.sub_add_cancel hk.1] at hpred
  have := hpred h
  omega

theorem dash_not_mem_monthName {m : Nat} (hm : 1 ≤ m ∧ m ≤ 12) : '-' ∉ (monthName m).toList := by
  have hall : ∀ m < 12, '-' ∉ (monthName (m + 1)).toList := by decide
  have hpred := hall (m - 1) (by omega)
  rwa [Nat.sub_add_cancel hm.1] at hpred

/-! ## Labels -/

/-- The date of a time in UTC. -/
def civilOf (s : Int) : Civil := (DateTime.utc s).date.civil

theorem label_yearly (s : Int) : yearly.label s = toString (civilOf s).year := rfl

theorem label_monthly (s : Int) :
    monthly.label s = monthName (civilOf s).month ++ ("-" ++ toString (civilOf s).year) :=
  String.append_assoc

theorem label_daily (s : Int) :
    daily.label s = padded 2 (civilOf s).day ++ ("-" ++ monthly.label s) :=
  String.append_assoc

theorem label_minutely (s : Int) :
    minutely.label s = padded 2 (civilOf s).day ++ ("-" ++ (monthName (civilOf s).month ++ ("-" ++
      (toString (civilOf s).year ++ (":" ++ (padded 2 (DateTime.utc s).hour ++ (":" ++
        padded 2 (DateTime.utc s).minute))))))) := by
  simp only [label, civilOf, String.append_assoc]

theorem isValid_civilOf (s : Int) : (civilOf s).isValid = true := Date.isValid_civil _

theorem month_civilOf (s : Int) : 1 ≤ (civilOf s).month ∧ (civilOf s).month ≤ 12 :=
  ((civilOf s).isValid_iff.mp (isValid_civilOf s)).1

theorem year_civilOf (h : 0 ≤ s) : 0 ≤ (civilOf s).year := by
  have hday : 0 ≤ s / microsPerDay := Int.ediv_nonneg h (by decide)
  have hyear : 1 ≤ (civilOf s).year := one_le_yearOf hday
  omega

theorem clock_nonneg (s : Int) : 0 ≤ (DateTime.utc s).hour ∧ 0 ≤ (DateTime.utc s).minute := by
  simp only [DateTime.hour, DateTime.minute, DateTime.timeOfDay, microsPerHour, microsPerDay,
    microsPerMinute, microsPerSecond]
  omega

theorem day_of_civilOf_eq (h : civilOf s = civilOf s') : s / microsPerDay = s' / microsPerDay := by
  have hdate : (DateTime.utc s).date = (DateTime.utc s').date := Date.civil_injective h
  exact Date.eq_mk_iff.mp hdate

/-- The day of a month and the month are read from the front of a label. -/
theorem day_month_inj {rest rest' : String}
    (h : padded 2 (civilOf s).day ++ ("-" ++ (monthName (civilOf s).month ++ ("-" ++ rest)))
      = padded 2 (civilOf s').day ++ ("-" ++ (monthName (civilOf s').month ++ ("-" ++ rest')))) :
    (civilOf s).day = (civilOf s').day ∧ (civilOf s).month = (civilOf s').month ∧
      rest = rest' := by
  have hdash (n : Nat) : '-' ∉ (padded 2 n).toList :=
    not_mem_of_digits (digits_padded 2 (Int.natCast_nonneg n)) rfl
  obtain ⟨hday, h⟩ := cut rfl (hdash _) (hdash _) h
  obtain ⟨hmonth, hrest⟩ := cut rfl (dash_not_mem_monthName (month_civilOf s))
    (dash_not_mem_monthName (month_civilOf s')) h
  have hday' := padded_inj (Int.natCast_nonneg _) (Int.natCast_nonneg _) hday
  exact ⟨by omega, monthName_inj (month_civilOf s) (month_civilOf s') hmonth, hrest⟩

theorem civil_ext {c c' : Civil} (hyear : c.year = c'.year) (hmonth : c.month = c'.month)
    (hday : c.day = c'.day) : c = c' := by
  cases c
  cases c'
  simp_all

/-- The date of a midnight is the one that its day shows. -/
theorem civilOf_midnight {n : Int} {c : Civil} (hshows : Shows n c) :
    civilOf (n * microsPerDay) = c := by
  have hdate : (DateTime.utc (n * microsPerDay)).date = ⟨n⟩ := by
    rw [Date.eq_mk_iff]
    exact Int.mul_ediv_cancel n (by decide)
  rw [civilOf, hdate]
  exact shows_iff.mp hshows

/-- Grid points of days are told apart by their dates. -/
theorem IsGridPoint.eq_of_civilOf (hs : daily.IsGridPoint s) (hs' : daily.IsGridPoint s')
    (h : civilOf s = civilOf s') : s = s' := by
  have hday := day_of_civilOf_eq h
  obtain ⟨n, _, rfl⟩ := hs
  obtain ⟨m, _, rfl⟩ := hs'
  simp only [unit, microsPerDay, microsPerHour, microsPerMinute, microsPerSecond] at hday ⊢
  omega

/-- Grid points of minutes are told apart by their dates and what a clock shows to the minute. -/
theorem IsGridPoint.eq_of_clock (hs : minutely.IsGridPoint s) (hs' : minutely.IsGridPoint s')
    (h : civilOf s = civilOf s') (hhour : (DateTime.utc s).hour = (DateTime.utc s').hour)
    (hminute : (DateTime.utc s).minute = (DateTime.utc s').minute) : s = s' := by
  have hday := day_of_civilOf_eq h
  obtain ⟨n, _, rfl⟩ := hs
  obtain ⟨m, _, rfl⟩ := hs'
  simp only [DateTime.hour, DateTime.minute, DateTime.timeOfDay, DateTime.utc, unit, microsPerDay,
    microsPerHour, microsPerMinute, microsPerSecond] at hday hhour hminute ⊢
  omega

section Injective

variable (hpos : 0 ≤ s) (hpos' : 0 ≤ s')

include hpos hpos'

theorem daily_inj (hs : daily.IsGridPoint s) (hs' : daily.IsGridPoint s')
    (h : daily.label s = daily.label s') : s = s' := by
  rw [label_daily, label_daily, label_monthly, label_monthly] at h
  obtain ⟨hday, hmonth, hyear⟩ := day_month_inj h
  have hyear' := year_inj (year_civilOf hpos) (year_civilOf hpos') hyear
  exact hs.eq_of_civilOf hs' (civil_ext hyear' hmonth hday)

theorem minutely_inj (hs : minutely.IsGridPoint s) (hs' : minutely.IsGridPoint s')
    (h : minutely.label s = minutely.label s') : s = s' := by
  have hcolon {n : Int} (hn : 0 ≤ n) : ':' ∉ (padded 2 n).toList :=
    not_mem_of_digits (digits_padded 2 hn) rfl
  have hcolon' {y : Int} (hy : 0 ≤ y) : ':' ∉ (toString y).toList :=
    not_mem_of_digits (digits_year hy) rfl
  have hyears := year_civilOf hpos
  have hyears' := year_civilOf hpos'
  obtain ⟨hhours, hminutes⟩ := clock_nonneg s
  obtain ⟨hhours', hminutes'⟩ := clock_nonneg s'
  rw [label_minutely, label_minutely] at h
  obtain ⟨hday, hmonth, h⟩ := day_month_inj h
  obtain ⟨hyear, h⟩ := cut rfl (hcolon' hyears) (hcolon' hyears') h
  obtain ⟨hhour, hminute⟩ := cut rfl (hcolon hhours) (hcolon hhours') h
  exact hs.eq_of_clock hs' (civil_ext (year_inj hyears hyears' hyear) hmonth hday)
    (padded_inj hhours hhours' hhour) (padded_inj hminutes hminutes' hminute)

theorem monthly_inj (hs : monthly.IsGridPoint s) (hs' : monthly.IsGridPoint s')
    (h : monthly.label s = monthly.label s') : s = s' := by
  rw [label_monthly, label_monthly] at h
  obtain ⟨hmonth, hyear⟩ := cut rfl (dash_not_mem_monthName (month_civilOf s))
    (dash_not_mem_monthName (month_civilOf s')) h
  have hfirst {s : Int} (hs : monthly.IsGridPoint s) : (civilOf s).day = 1 := by
    obtain ⟨n, ⟨c, hshows, hday⟩, hsn⟩ := hs
    rw [hsn]
    exact (civilOf_midnight hshows).symm ▸ hday
  refine (hs.of_refines .months).eq_of_civilOf (hs'.of_refines .months) (civil_ext ?_ ?_ ?_)
  · exact year_inj (year_civilOf hpos) (year_civilOf hpos') hyear
  · exact monthName_inj (month_civilOf s) (month_civilOf s') hmonth
  · rw [hfirst hs, hfirst hs']

theorem yearly_inj (hs : yearly.IsGridPoint s) (hs' : yearly.IsGridPoint s')
    (h : yearly.label s = yearly.label s') : s = s' := by
  rw [label_yearly, label_yearly] at h
  have hyear := year_inj (year_civilOf hpos) (year_civilOf hpos') h
  have hfirst {s : Int} (hs : yearly.IsGridPoint s) :
      (civilOf s).day = 1 ∧ (civilOf s).month = 1 := by
    obtain ⟨n, ⟨c, hshows, hfirst⟩, hsn⟩ := hs
    rw [hsn]
    exact (civilOf_midnight hshows).symm ▸ hfirst
  have hdays : Refines daily yearly := .trans .months .years
  refine (hs.of_refines hdays).eq_of_civilOf (hs'.of_refines hdays) (civil_ext hyear ?_ ?_)
  · rw [(hfirst hs).2, (hfirst hs').2]
  · rw [(hfirst hs).1, (hfirst hs').1]

/-- A label names one grid point of its interval. -/
theorem label_inj (hs : i.IsGridPoint s) (hs' : i.IsGridPoint s') (h : i.label s = i.label s') :
    s = s' := by
  cases i with
  | minutely => exact minutely_inj hpos hpos' hs hs' h
  | hourly => exact minutely_inj hpos hpos' (hs.of_refines .hours) (hs'.of_refines .hours) h
  | daily => exact daily_inj hpos hpos' hs hs' h
  | weekly => exact daily_inj hpos hpos' (hs.of_refines .weeks) (hs'.of_refines .weeks) h
  | monthly => exact monthly_inj hpos hpos' hs hs' h
  | yearly => exact yearly_inj hpos hpos' hs hs' h

end Injective

example : weekly.label (weekly.floor (DateTime.ofDate (Civil.date ⟨2026, 3, 14⟩)).wall)
    = "09-Mar-2026" := by decide

end Interval
end EventQuery
