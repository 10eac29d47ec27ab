import EventQuery.Calendar.Timestamp
import EventQuery.Proofs.Calendar.Notation
import Mathlib.Data.Rat.Floor

/-!
# EventQuery.Proofs.Calendar.Denotation

The instants that timestamps denote (`Denotes`): in the standard notation the one that is written,
with all digits of its fraction and its offset taken off; in the other notations the one that is
read. A text denotes one instant at most (`Denotes.unique`), every timestamp that is read denotes
one (`exists_denotes`), and what is read of it is the instant to the microsecond at or below
(`Denotes.floor_eq`).
-/

namespace EventQuery
namespace Timestamp

open Calendar

/-- The instant of a reading in microseconds since year 1, to the last digit of its fraction. -/
def Standard.Reading.exact (r : Reading) : ℚ :=
  (r.date.days * microsPerDay + r.clock.seconds * microsPerSecond
      - r.offset.getD 0 * microsPerSecond : Int)
    + (Text.numberOf r.clock.fraction * tenTo 6 : Nat) / (tenTo r.clock.fraction.length : Nat)

/-- The instant that a text denotes, in microseconds since year 1. -/
inductive Denotes (s : String) : ℚ → Prop where
  | written {r : Standard.Reading} : Standard.Writes s.toList r → Denotes s r.exact
  | read {t : DateTime} : (∀ r, ¬Standard.Writes s.toList r) → read? s = some t →
      Denotes s (t.instant : Int)

namespace Standard

variable {ts s : List Char} {clock : Clock} {r : Reading}

theorem WritesClock.digits_fraction (h : WritesClock ts clock) : Text.Digits clock.fraction := by
  cases h with
  | hour | minute | second => exact nofun
  | fraction _ _ _ _ _ _ hfraction _ => exact hfraction

theorem Writes.digits_fraction (h : Writes s r) : Text.Digits r.clock.fraction := by
  cases h with
  | year | month | day => exact nofun
  | time _ _ _ _ hclock _ => exact hclock.digits_fraction

/-- What is kept of an instant is the microsecond at or below. -/
theorem Reading.floor_exact (h : Text.Digits r.clock.fraction) : ⌊r.exact⌋ = r.time.instant := by
  have hfraction : Text.fractionOf 6 r.clock.fraction
      = Text.numberOf r.clock.fraction * tenTo 6 / tenTo r.clock.fraction.length :=
    Text.fractionOf_eq_div 6 h
  have hfloor : ⌊((Text.numberOf r.clock.fraction * tenTo 6 : Nat) : ℚ)
      / (tenTo r.clock.fraction.length : Nat)⌋ = (Text.fractionOf 6 r.clock.fraction : Int) := by
    rw [hfraction, Rat.floor_natCast_div_natCast, Int.natCast_ediv]
  rw [exact, Int.floor_intCast_add, hfloor, DateTime.instant, time]
  dsimp only
  omega

end Standard

variable {s : String} {x y : ℚ} {t : DateTime}

theorem Denotes.unique (h : Denotes s x) (h' : Denotes s y) : x = y := by
  cases h with
  | @written r hr =>
    cases h' with
    | @written r' hr' =>
      have hread := Standard.read?_of_writes hr
      rw [Standard.read?_of_writes hr'] at hread
      cases hread
      rfl
    | read hno => exact absurd hr (hno r)
  | read hno ht =>
    cases h' with
    | @written r' hr' => exact absurd hr' (hno r')
    | read _ ht' =>
      rw [ht] at ht'
      cases ht'
      rfl

theorem exists_denotes (h : read? s = some t) : ∃ x, Denotes s x := by
  by_cases hwritten : ∃ r, Standard.Writes s.toList r
  · obtain ⟨r, hr⟩ := hwritten
    exact ⟨r.exact, .written hr⟩
  · exact ⟨_, .read (not_exists.mp hwritten) h⟩

/-- What is written is read where there is room for its digits. -/
theorem read?_of_writes {r : Standard.Reading} (h : Standard.Writes s.toList r)
    (hfits : r.fits = true) : read? s = some r.time := by
  unfold read?
  dsimp only
  rw [Standard.read?_of_writes h]
  exact if_pos hfits

/-- What is read is the instant denoted, to the microsecond at or below. -/
theorem Denotes.floor_eq (h : Denotes s x) (ht : read? s = some t) : ⌊x⌋ = t.instant := by
  cases h with
  | @written r hr =>
    unfold read? at ht
    dsimp only at ht
    rw [Standard.read?_of_writes hr] at ht
    dsimp only at ht
    split at ht
    · cases ht
      exact Standard.Reading.floor_exact hr.digits_fraction
    · cases ht
  | read _ ht' =>
    rw [ht] at ht'
    cases ht'
    exact Int.floor_intCast _

/-- A timestamp that is read, of an instant in the years of the calendar. -/
structure Tells (s : String) (x : ℚ) : Prop where
  accepted : (read? s).isSome = true
  denotes : Denotes s x
  inYears : inYears ⌊x⌋ = true

theorem Tells.instant_eq (h : Tells s x) (ht : read? s = some t) : t.instant = ⌊x⌋ :=
  (h.denotes.floor_eq ht).symm

theorem Tells.read?_eq (h : Tells s x) :
    ∃ t, read? s = some t ∧ t.instant = ⌊x⌋ ∧ Calendar.inYears t.instant = true := by
  obtain ⟨t, ht⟩ := Option.isSome_iff_exists.mp h.accepted
  have hinstant := h.instant_eq ht
  exact ⟨t, ht, hinstant, hinstant ▸ h.inYears⟩

/-! ## New Year's Eve -/

open Standard

/-- Half a second past half past eleven on a clock an hour and a half behind UTC. -/
def evening : Reading := ⟨(Civil.mk 2026 12 31).date, ⟨84600, ['5']⟩, some (-5400)⟩

/-- The same time in UTC, in the next year. -/
def night : Reading := ⟨(Civil.mk 2027 1 1).date, ⟨3600, ['5', '0', '0']⟩, none⟩

theorem writes_evening : Writes "2026-12-31T23:30:00.5-01:30".toList evening := by
  have hday : WritesDay "2026-12-31".toList ⟨2026, 12, 31⟩ :=
    @WritesDay.marked '-' "2026".toList "12".toList "31".toList 2026 12 31 rfl (by decide)
      (by decide) (by decide)
  have hclock : WritesClock "23:30:00.5".toList ⟨84600, ['5']⟩ :=
    @WritesClock.fraction true "23".toList "30".toList "00".toList ['5'] 23 30 0 (by decide)
      (by decide) (by decide) (by decide) (by decide) (by decide) (by simp [Text.Digits])
      (by decide)
  have hzone : WritesZone "-01:30".toList (some (-5400)) :=
    @WritesZone.minutes true [] "01".toList "30".toList [] '-' (-1) 1 30 nofun .behind (by decide)
      (by decide) (by decide) (by decide) nofun
  exact @Writes.time [] _ _ _ 'T' _ _ _ nofun hday (by decide) (.inl rfl) hclock hzone

theorem writes_night : Writes "20270101 010000.500".toList night := by
  have hday : WritesDay "20270101".toList ⟨2027, 1, 1⟩ :=
    @WritesDay.compact "2027".toList "01".toList "01".toList 2027 1 1 (by decide) (by decide)
      (by decide)
  have hclock : WritesClock "010000.500".toList ⟨3600, ['5', '0', '0']⟩ :=
    @WritesClock.fraction false "01".toList "00".toList "00".toList ['5', '0', '0'] 1 0 0
      (by decide) (by decide) (by decide) (by decide) (by decide) (by decide)
      (by simp [Text.Digits]) (by decide)
  have hzone : WritesZone [] none := .none nofun
  exact @Writes.time [] _ _ _ ' ' _ _ _ nofun hday (by decide) (.inr rfl) hclock hzone

theorem exact_night : night.exact = evening.exact := by
  have hwhole : night.date.days * microsPerDay + night.clock.seconds * microsPerSecond
        - night.offset.getD 0 * microsPerSecond
      = evening.date.days * microsPerDay + evening.clock.seconds * microsPerSecond
        - evening.offset.getD 0 * microsPerSecond := by decide
  have hnight : Text.numberOf night.clock.fraction * tenTo 6 = 500000000 ∧
      tenTo night.clock.fraction.length = 1000 := by decide +kernel
  have hevening : Text.numberOf evening.clock.fraction * tenTo 6 = 5000000 ∧
      tenTo evening.clock.fraction.length = 10 := by decide +kernel
  rw [Reading.exact, Reading.exact, hwhole, hnight.1, hnight.2, hevening.1, hevening.2]
  norm_num

theorem inYears_evening : Calendar.inYears ⌊evening.exact⌋ = true := by
  rw [Reading.floor_exact writes_evening.digits_fraction]
  decide +kernel

theorem read?_evening : read? "2026-12-31T23:30:00.5-01:30" = some evening.time :=
  read?_of_writes writes_evening rfl

theorem read?_night : read? "20270101 010000.500" = some night.time :=
  read?_of_writes writes_night rfl

theorem tells_evening : Tells "2026-12-31T23:30:00.5-01:30" evening.exact :=
  ⟨Option.isSome_of_eq_some read?_evening, .written writes_evening, inYears_evening⟩

theorem tells_night : Tells "20270101 010000.500" evening.exact :=
  ⟨Option.isSome_of_eq_some read?_night, exact_night ▸ .written writes_night, inYears_evening⟩

end Timestamp
end EventQuery
