import EventQuery.Value.Moment
import Mathlib.Data.Rat.Floor

/-!
# EventQuery.Proofs.Value.Moment

The instants that values denote, said beside the reader (`Denotes`). Every value of an instant in
the years 1 to 9999 is read, except where more digits of a second than a microsecond has must be
kept: these are counted in nanoseconds since 1970, which a signed word of 64 bits holds for some
centuries only (`isSome_moment?_iff`).
-/

namespace EventQuery
namespace Value

open Calendar Timestamp

/-- The instant of a value, to the microsecond at or below: milliseconds since 1970, a day, a time,
or a text in one of the notations. -/
inductive Denotes : Value → Int → Prop where
  | millis (n : Int) : Denotes (.int n) (epoch + n * 1000)
  | fraction {x : Binary64} : x.isFinite = true →
      Denotes (.float x) (epoch + (x.toRat * 1000).floor)
  | day (d : Date) : Denotes (.date d) (DateTime.ofDate d).instant
  | time (t : DateTime) : Denotes (.datetime t) t.instant
  | standard {s : String} {r : Standard.Reading} : Standard.read? s.toList = some r →
      Denotes (.text s) r.time.instant
  | other {s : String} {t : DateTime} : Standard.read? s.toList = none → read? s = some t →
      Denotes (.text s) t.instant

/-- Milliseconds with a fraction, and texts with seven digits or more behind a second, are kept in
nanoseconds, and a word must hold those. -/
def InReach : Value → Prop
  | .float x =>
    let whole := Epoch.truncated x.toRat
    let fraction := x.toRat - whole
    fraction = 0 ∨ Epoch.fitsWord (whole * 1000000 + Epoch.nanosOfFraction fraction) = true
  | .text s => ∀ r, Standard.read? s.toList = some r → r.fits = true
  | _ => True

variable {v : Value} {t : Int}

/-- Whole milliseconds have room for more than the years of the calendar. -/
theorem ofMillis?_of_inYears {n : Int} (h : inYears (epoch + n * 1000) = true) :
    Epoch.ofMillis? n = some (epoch + n * 1000) := by
  have hepoch : epoch = 62135596800000000 := by decide
  have hend : Date.endOfYears * microsPerDay = 315537897600000000 := by decide
  have hword : twoTo 63 = 9223372036854775808 := by decide
  simp only [inYears, Bool.and_eq_true, decide_eq_true_eq] at h
  have hfits : Epoch.fitsWord (n * 1000) = true := by
    rw [Epoch.fitsWord, decide_eq_true_eq]
    omega
  rw [Epoch.ofMillis?, if_pos hfits]

theorem isSome_ofDouble?_iff {x : Binary64}
    (h : inYears (epoch + (x.toRat * 1000).floor) = true) :
    (Epoch.ofDouble? x).isSome = true ↔ (Value.float x).InReach := by
  unfold Epoch.ofDouble? InReach
  dsimp only
  by_cases hwhole : x.toRat - Epoch.truncated x.toRat = 0
  · have hmillis : x.toRat * 1000 = ((Epoch.truncated x.toRat * 1000 : Int) : Rat) := by
      push_cast
      rw [← sub_eq_zero.mp hwhole]
    rw [hmillis, Rat.floor_intCast] at h
    rw [if_pos hwhole, ofMillis?_of_inYears h]
    exact iff_of_true rfl (.inl hwhole)
  · rw [if_neg hwhole, or_iff_right hwhole]
    split
    · exact iff_of_true rfl ‹_›
    · exact iff_of_false nofun ‹_›

/-- An instant in the years of the calendar is read exactly if it is in reach. -/
theorem Denotes.isSome_moment?_iff (h : v.Denotes t) (hyears : inYears t = true) :
    v.moment?.isSome = true ↔ v.InReach := by
  cases h with
  | millis n =>
    rw [moment?, ofMillis?_of_inYears hyears]
    exact iff_of_true rfl trivial
  | fraction hfinite =>
    rw [moment?, if_pos hfinite, Option.isSome_map]
    exact isSome_ofDouble?_iff hyears
  | day d => exact iff_of_true rfl trivial
  | time t => exact iff_of_true rfl trivial
  | @standard s r hread =>
    have hmoment : (text s).moment? = if r.fits = true then some r.time else none := by
      change read? s = _
      unfold read?
      dsimp only
      rw [hread]
    have hreach : (text s).InReach ↔ r.fits = true := by
      unfold InReach
      simp [hread]
    rw [hmoment, hreach]
    split
    · exact iff_of_true rfl ‹_›
    · exact iff_of_false nofun ‹_›
  | other hread htime =>
    rw [moment?, htime]
    refine iff_of_true rfl fun r hr => ?_
    rw [hread] at hr
    cases hr

end Value
end EventQuery
