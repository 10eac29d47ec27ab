import EventQuery.Proofs.Calendar.Blank
import EventQuery.Proofs.Calendar.Denotation
import EventQuery.Proofs.Calendar.Label
import EventQuery.Proofs.History.Faults

/-!
# EventQuery.Proofs.History.Reference

The date that a view refers to. It is the one that the timestamp's own clock shows, not the one in
UTC by which rollups are kept, so it is the date of the instant only where the offset carries the
clock over no midnight (`DateTime.OnUtcDay`). Two timestamps of one instant may refer to different
dates, and then there is a rollup of which they show different views (`refers_to_utc_date_iff`).
-/

namespace EventQuery

open Calendar

/-- A clock that shows the date of its instant in UTC: its offset carries it over no midnight. -/
def DateTime.OnUtcDay (t : DateTime) : Prop :=
  0 ≤ (utc t.instant).timeOfDay + t.offset.getD 0 * microsPerSecond ∧
    (utc t.instant).timeOfDay + t.offset.getD 0 * microsPerSecond < microsPerDay

theorem DateTime.date_eq_utc_iff {t : DateTime} : t.date = (utc t.instant).date ↔ t.OnUtcDay := by
  have hwall : t.wall = t.instant + t.offset.getD 0 * microsPerSecond := by
    rw [instant]
    omega
  rw [OnUtcDay, date, date, Date.mk.injEq, timeOfDay, utc, hwall]
  dsimp only
  generalize t.offset.getD 0 * microsPerSecond = offset
  simp only [microsPerDay, microsPerHour, microsPerMinute, microsPerSecond]
  omega

theorem DateTime.inYears_date_utc {i : Int} (h : Calendar.inYears i = true) :
    (utc i).date.inYears = true := by
  simp only [Calendar.inYears, Bool.and_eq_true, decide_eq_true_eq] at h
  have hpos : 0 < microsPerDay := by decide
  rw [Date.inYears, Bool.and_eq_true, decide_eq_true_eq, decide_eq_true_eq]
  exact ⟨Int.ediv_nonneg h.1 hpos.le, Int.ediv_lt_of_lt_mul hpos h.2⟩

/-! ## Rollups that tell days apart -/

namespace Rollup

open Text

variable {d d' : Date} {rollup : Record}

/-- Days are told apart by their names. -/
theorem dayText_inj (hd : 0 ≤ d.days) (hd' : 0 ≤ d'.days) (h : dayText d = dayText d') :
    d = d' := by
  have hyear : 1 ≤ d.civil.year := one_le_yearOf hd
  have hyear' : 1 ≤ d'.civil.year := one_le_yearOf hd'
  have hdash {y : Int} (hy : 1 ≤ y) : '-' ∉ (toString y).toList :=
    not_mem_of_digits (digits_year (by omega)) rfl
  have hdash' (n : Nat) : '-' ∉ (padded 2 n).toList :=
    not_mem_of_digits (digits_padded 2 (Int.natCast_nonneg n)) rfl
  simp only [dayText, monthText, String.append_assoc] at h
  obtain ⟨hyears, h⟩ := cut rfl (hdash hyear) (hdash hyear') h
  obtain ⟨hmonths, hdays⟩ := cut rfl (hdash' _) (hdash' _) h
  have hmonth := padded_inj (Int.natCast_nonneg _) (Int.natCast_nonneg _) hmonths
  have hday := padded_inj (Int.natCast_nonneg _) (Int.natCast_nonneg _) hdays
  refine Date.civil_injective (Interval.civil_ext ?_ (by omega) (by omega))
  exact year_inj (by omega) (by omega) hyears

theorem entries_eq_map {f : String → Binary64} (h : ∀ k, entry rollup k = .ok (f k))
    (ks : List String) : entries rollup ks = .ok (ks.map f) := by
  induction ks with
  | nil => rfl
  | cons k rest ih => rw [entries, h, ih, List.map_cons]

/-- A view of a rollup of which every entry is read. -/
theorem viewOf_eq_ok {f : String → Binary64} (h : ∀ k, entry rollup k = .ok (f k))
    (ks : List String) (bucket : String) : viewOf rollup ks bucket =
      .ok ⟨ks.map f, f (key "avg" bucket), f (key "min" bucket), f (key "max" bucket)⟩ := by
  rw [viewOf, entries_eq_map h, h, h, h]
  rfl

theorem hours_eq_ok {f : String → Binary64} (h : ∀ k, entry rollup k = .ok (f k)) (d : Date) :
    hours rollup d = .ok ⟨((List.range 24).map (hourKey (dayText d))).map f,
      f (key "avg" (dayText d)), f (key "min" (dayText d)), f (key "max" (dayText d))⟩ :=
  viewOf_eq_ok h _ _

/-- A rollup with the average of one day, which no other day has. -/
def averageOf (d : Date) : Record := [(key "avg" (dayText d), .float (.infinity false))]

theorem entry_averageOf (d : Date) (k : String) : entry (averageOf d) k
    = .ok (if key "avg" (dayText d) = k then .infinity false else .zero) := by
  by_cases hk : key "avg" (dayText d) = k
  · have hvalue : Record.value (averageOf d) k = .float (.infinity false) := by
      simp [averageOf, Record.value, Record.find?, hk]
    have hnonzero : (Binary64.infinity false).isZero = false := by decide +kernel
    rw [if_pos hk, entry, hvalue]
    simp [Value.isBlank, hnonzero]
  · have hother : (k == key "avg" (dayText d)) = false :=
      beq_eq_false_iff_ne.mpr (Ne.symm hk)
    have hvalue : Record.value (averageOf d) k = .null := by
      simp [averageOf, Record.value, Record.find?, List.lookup_cons, hother]
    rw [if_neg hk, entry, hvalue]
    rfl

theorem eq_of_hours_averageOf (hd : 0 ≤ d.days) (hd' : 0 ≤ d'.days)
    (h : hours (averageOf d) d = hours (averageOf d) d') : d = d' := by
  rw [hours_eq_ok (entry_averageOf d), hours_eq_ok (entry_averageOf d)] at h
  have haverage := congrArg View.average (Except.ok.inj h)
  dsimp only at haverage
  rw [if_pos rfl] at haverage
  split at haverage
  · rename_i hkey
    exact dayText_inj hd hd' ((String.append_right_inj _).mp hkey)
  · exact absurd haverage (by decide +kernel)

/-- Dates or failures are told apart by the views of days that come of them. -/
theorem eq_of_hours_eq {a b : Outcome Date} (ha : ∀ d, a = .ok d → 0 ≤ d.days)
    (hb : ∀ d, b = .ok d → 0 ≤ d.days) (h : ∀ rollup, a >>= hours rollup = b >>= hours rollup) :
    a = b := by
  cases a with
  | ok d =>
    have hview := h (averageOf d)
    rw [Outcome.ok_bind] at hview
    cases b with
    | ok d' =>
      rw [Outcome.ok_bind] at hview
      rw [eq_of_hours_averageOf (ha d rfl) (hb d' rfl) hview]
    | error e =>
      rw [hours_eq_ok (entry_averageOf d), Outcome.error_bind] at hview
      cases hview
  | error e =>
    cases b with
    | ok d =>
      have hview := h (averageOf d)
      rw [Outcome.ok_bind, hours_eq_ok (entry_averageOf d), Outcome.error_bind] at hview
      cases hview
    | error e' =>
      have hview := h []
      rw [Outcome.error_bind, Outcome.error_bind] at hview
      exact congrArg _ (Except.error.inj hview)

end Rollup

/-! ## References -/

namespace History

open Timestamp

variable {s s' : String} {x : ℚ} {t t' : DateTime} {today d : Date}

/-- A timestamp is not an empty text. -/
theorem present_of_read? (h : read? s = some t) : present (some s) = some s := by
  have hfull : s.isEmpty = false := by
    rw [Bool.eq_false_iff]
    intro hempty
    have htrimmed := trimmed_of_read? h
    rw [String.isEmpty_iff.mp hempty] at htrimmed
    cases htrimmed
  simp [present, hfull]

/-- The date that a view refers to is the one that the clock shows. -/
theorem referenceDate_eq_ok_iff (h : read? s = some t) :
    referenceDate (some s) today = .ok d ↔ d = t.date ∧ d.inYears = true := by
  rw [referenceDate, present_of_read? h]
  dsimp only
  rw [h]
  dsimp only
  split
  · rename_i hyears
    constructor
    · intro hd
      cases hd
      exact ⟨rfl, hyears⟩
    · rintro ⟨rfl, _⟩
      rfl
  · rename_i hyears
    refine iff_of_false nofun ?_
    rintro ⟨rfl, hd⟩
    exact hyears hd

theorem refers_to_utc_iff (h : Tells s x) (ht : read? s = some t) :
    referenceDate (some s) today = .ok (DateTime.utc ⌊x⌋).date ↔ t.OnUtcDay := by
  have hyears := DateTime.inYears_date_utc h.inYears
  rw [referenceDate_eq_ok_iff ht, and_iff_left hyears, ← h.instant_eq ht, eq_comm,
    DateTime.date_eq_utc_iff]

theorem answer_congr (p : Params) (hs : present (some s) = some s)
    (hs' : present (some s') = some s')
    (h : referenceDate (some s) today = referenceDate (some s') today) (rollup : Outcome Record) :
    answer { p with date := some s } today rollup
      = answer { p with date := some s' } today rollup := by
  have hasked : asked { p with date := some s } today = asked { p with date := some s' } today := by
    unfold asked askedDate
    dsimp only
    rw [hs, hs', h]
    rfl
  rw [answer, answer, hasked]

/-- The view of a day that a date is given for. -/
theorem answer_day (hs : present (some s) = some s) (fields : Record) :
    answer { type := some "day", date := some s } today (.ok fields)
      = referenceDate (some s) today >>= Rollup.hours fields := by
  have htype : viewType (some "day") = .ok .day := by decide
  have hasked : asked { type := some "day", date := some s } today
      = (referenceDate (some s) today).map (Rollup.ViewType.day, ·) := by
    rw [asked]
    dsimp only
    rw [htype]
    show (askedDate _ today Rollup.ViewType.day).map _ = _
    rw [askedDate, hs, if_neg (by simp)]
  rw [answer, hasked]
  cases referenceDate (some s) today <;> rfl

theorem days_of_referenceDate (h : read? s = some t) (hd : referenceDate (some s) today = .ok d) :
    0 ≤ d.days := by
  have hyears := ((referenceDate_eq_ok_iff h).mp hd).2
  rw [Date.inYears, Bool.and_eq_true, decide_eq_true_iff] at hyears
  exact hyears.1

/-- Two timestamps of one instant refer to its date in UTC if and only if both clocks show that
date. They refer to one date, if to any, if and only if no rollup shows different views for them. -/
theorem refers_to_utc_date_iff (today : Date) (h : Tells s x) (h' : Tells s' x)
    (ht : read? s = some t) (ht' : read? s' = some t') :
    (referenceDate (some s) today = .ok (DateTime.utc ⌊x⌋).date ∧
        referenceDate (some s') today = .ok (DateTime.utc ⌊x⌋).date ↔ t.OnUtcDay ∧ t'.OnUtcDay) ∧
      (referenceDate (some s) today = referenceDate (some s') today ↔
        ∀ (p : Params) (rollup : Outcome Record), answer { p with date := some s } today rollup
          = answer { p with date := some s' } today rollup) ∧
      ∀ d, referenceDate (some s) today = .ok d ↔ d = t.date ∧ d.inYears = true := by
  refine ⟨and_congr (refers_to_utc_iff h ht) (refers_to_utc_iff h' ht'), ⟨fun heq p rollup => ?_,
    fun hviews => ?_⟩, fun d => referenceDate_eq_ok_iff ht⟩
  · exact answer_congr p (present_of_read? ht) (present_of_read? ht') heq rollup
  · refine Rollup.eq_of_hours_eq (fun d => days_of_referenceDate ht)
      (fun d => days_of_referenceDate ht') fun fields => ?_
    have hday := hviews { type := some "day" } (.ok fields)
    dsimp only at hday
    rwa [answer_day (present_of_read? ht), answer_day (present_of_read? ht')] at hday

/-! ## New Year's Eve -/

theorem not_onUtcDay_evening : ¬evening.time.OnUtcDay := by
  rintro ⟨hnonneg, _⟩
  exact absurd hnonneg (by decide +kernel)

theorem onUtcDay_night : night.time.OnUtcDay := by
  constructor <;> decide +kernel

/-- On the clock behind UTC it is still the old year, in UTC the new one has begun: the two texts
refer to different dates, and some rollup shows different views for them. -/
theorem refers_to_utc_date_iff_newYear :
    referenceDate (some "20270101 010000.500") ⟨0⟩ = .ok (DateTime.utc ⌊evening.exact⌋).date ∧
      referenceDate (some "2026-12-31T23:30:00.5-01:30") ⟨0⟩
        ≠ .ok (DateTime.utc ⌊evening.exact⌋).date ∧
      ∃ (p : Params) (rollup : Outcome Record),
        answer { p with date := some "2026-12-31T23:30:00.5-01:30" } ⟨0⟩ rollup
        ≠ answer { p with date := some "20270101 010000.500" } ⟨0⟩ rollup := by
  have hnight := (refers_to_utc_date_iff ⟨0⟩ tells_night tells_night read?_night read?_night).1.mpr
    ⟨onUtcDay_night, onUtcDay_night⟩
  obtain ⟨hboth, hviews, _⟩ :=
    refers_to_utc_date_iff ⟨0⟩ tells_evening tells_night read?_evening read?_night
  have hevening : referenceDate (some "2026-12-31T23:30:00.5-01:30") ⟨0⟩
      ≠ .ok (DateTime.utc ⌊evening.exact⌋).date :=
    fun heq => not_onUtcDay_evening (hboth.mp ⟨heq, hnight.1⟩).1
  refine ⟨hnight.1, hevening, ?_⟩
  by_contra hnone
  simp only [ne_eq, not_exists, not_not] at hnone
  exact hevening ((hviews.mpr hnone).trans hnight.1)

/-- Timestamps do not all refer to the date of their instant in UTC, nor do those of one instant
all refer to one date. -/
theorem not_refers_newYear :
    referenceDate (some "2026-12-31T23:30:00.5-01:30") ⟨0⟩ = .ok (Civil.mk 2026 12 31).date ∧
      referenceDate (some "20270101 010000.500") ⟨0⟩ = .ok (Civil.mk 2027 1 1).date ∧
      ¬∀ s s' x today, Tells s x → Tells s' x →
        referenceDate (some s) today = .ok (DateTime.utc ⌊x⌋).date ∧
          referenceDate (some s) today = referenceDate (some s') today := by
  have hevening : referenceDate (some "2026-12-31T23:30:00.5-01:30") ⟨0⟩
      = .ok (Civil.mk 2026 12 31).date :=
    (referenceDate_eq_ok_iff read?_evening).mpr (by decide +kernel)
  have hnight : referenceDate (some "20270101 010000.500") ⟨0⟩ = .ok (Civil.mk 2027 1 1).date :=
    (referenceDate_eq_ok_iff read?_night).mpr (by decide +kernel)
  refine ⟨hevening, hnight, fun hall => ?_⟩
  have hsame := (hall _ _ _ ⟨0⟩ tells_evening tells_night).2
  rw [hevening, hnight] at hsame
  exact absurd (Except.ok.inj hsame) (by decide)

end History
end EventQuery
