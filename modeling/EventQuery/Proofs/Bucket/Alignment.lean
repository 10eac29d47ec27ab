import EventQuery.Proofs.Calendar.Grid
import EventQuery.Proofs.Reduction.Faults

/-!
# EventQuery.Proofs.Bucket.Alignment

Where the bucket of a time begins: at the last grid point at or before it, whatever form the time
is given in and however far its clock is ahead of UTC. The beginning of a bucket is in that bucket,
and later times are in the same bucket or a later one (`startOf_aligned`).
-/

namespace EventQuery
namespace Bucket

variable {i : Interval} {v : Value} {t : DateTime}

theorem startOf_of_moment (i : Interval) (h : v.moment? = some t) :
    startOf v i = .ok (i.floor t.instant) := by
  have hnull : ¬v.isNull = true := by
    intro hnull
    cases v with
    | null => cases h
    | _ => cases hnull
  rw [startOf, if_neg hnull, h]

theorem startOf_eq_floor_iff {start : Int} :
    startOf v i = .ok start ↔ ∃ t, v.moment? = some t ∧ i.floor t.instant = start := by
  constructor
  · intro h
    obtain ⟨t, ht⟩ := Option.isSome_iff_exists.mp (startOf_eq_ok_iff.mp ⟨start, h⟩)
    rw [startOf_of_moment i ht] at h
    exact ⟨t, ht, Except.ok.inj h⟩
  · rintro ⟨t, ht, rfl⟩
    exact startOf_of_moment i ht

/-- A time without an offset is read as UTC. -/
theorem startOf_wall (i : Interval) (wall : Int) :
    startOf (.datetime ⟨wall, none⟩) i = .ok (i.floor wall) := by
  have hinstant : (⟨wall, none⟩ : DateTime).instant = wall := by
    rw [DateTime.instant]
    simp
  rw [startOf_of_moment i rfl, hinstant]

theorem startOf_aligned (i : Interval) {v : Value} {t : DateTime} (h : v.moment? = some t)
    (hyears : Calendar.inYears t.instant = true) :
    ∃ start, startOf v i = .ok start ∧ Calendar.inYears start = true ∧ i.IsGridPoint start ∧
      start ≤ t.instant ∧
      (∃ next, IsLeast {g | i.IsGridPoint g ∧ start < g} next ∧ t.instant < next) ∧
      startOf (.datetime ⟨start, none⟩) i = .ok start ∧
      ∀ w u, w.moment? = some u → t.instant ≤ u.instant →
        ∃ start', startOf w i = .ok start' ∧ start ≤ start' := by
  have hgrid := i.isGridPoint_floor t.instant
  obtain ⟨next, hnext⟩ := i.exists_isLeast_after (i.floor t.instant)
  refine ⟨i.floor t.instant, startOf_of_moment i h, i.inYears_floor hyears, hgrid, i.floor_le _,
    ⟨next, hnext, hnext.1.1.floor_lt_iff.mp hnext.1.2⟩, ?_, ?_⟩
  · rw [startOf_wall, hgrid.floor_eq]
  · intro w u hw hle
    exact ⟨_, startOf_of_moment i hw, i.floor_mono hle⟩

/-- Half an hour into a Monday on a clock two hours ahead of UTC, where it is still Sunday. -/
def earlyMonday : DateTime where
  wall := (Civil.date ⟨2026, 3, 16⟩).days * Calendar.microsPerDay + 30 * Calendar.microsPerMinute
  offset := some 7200

theorem startOf_aligned_earlyMonday :
    ∃ start next, startOf (.datetime earlyMonday) .weekly = .ok start ∧
      start = (Civil.date ⟨2026, 3, 9⟩).days * Calendar.microsPerDay ∧
      Interval.weekly.IsGridPoint start ∧ start ≤ earlyMonday.instant ∧
      IsLeast {g | Interval.weekly.IsGridPoint g ∧ start < g} next ∧
      earlyMonday.instant < next ∧ startOf (.datetime ⟨start, none⟩) .weekly = .ok start := by
  obtain ⟨start, hstart, _, hgrid, hle, ⟨next, hnext, hlt⟩, hagain, _⟩ :=
    startOf_aligned .weekly (v := .datetime earlyMonday) rfl (by decide)
  refine ⟨start, next, hstart, ?_, hgrid, hle, hnext, hlt, hagain⟩
  have hcomputed : startOf (.datetime earlyMonday) .weekly
      = .ok ((Civil.date ⟨2026, 3, 9⟩).days * Calendar.microsPerDay) := by decide
  rw [hstart] at hcomputed
  exact Except.ok.inj hcomputed

end Bucket
end EventQuery
