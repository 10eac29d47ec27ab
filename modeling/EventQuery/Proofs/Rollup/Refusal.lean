import EventQuery.Proofs.Rollup.Week

/-!
# EventQuery.Proofs.Rollup.Refusal

Which rollups a view is shown of. A view is shown exactly if each entry that it reads passes for a
number (`exists_view_iff`), and is otherwise refused for the first that does not, unless that is an
integer which no double holds (`view_eq_complain_iff`). An entry may pass for a number without being
one (`Overlooked`): whatever is blank reads as zero, be it a text, an array or false, and a double
need not be finite. `guarded_iff` says where this, or an integer that is too large, keeps a view
from telling numbers from other entries.
-/

namespace EventQuery
namespace Rollup

open Outcome

variable {rollup : Record} {reference : Date} {t : ViewType} {k : String} {v : Value}
  {why : Complaint}

/-- A date whose views do not go back to before the first day of the calendar. -/
structure Usable (t : ViewType) (reference : Date) : Prop where
  days_nonneg : 0 ≤ reference.days
  week_le : t = .week → weekDays ≤ reference.days + 1

/-! ## Entries -/

/-- What reads as a number without being one: blanks other than null and zero, and doubles that are
not finite. -/
inductive Overlooked : Value → Prop where
  | blank {v : Value} : v.isBlank = true → v.isNull = false → v.isNumber = false → Overlooked v
  | float {x : Binary64} : x.isFinite = false → Overlooked (.float x)

theorem readable_of_isNumeric (h : IsNumeric v) : Readable v := by
  cases h with
  | null => exact .inl rfl
  | @float x _ => exact .inr (.inl ⟨x, rfl⟩)
  | @int n hn => exact .inr (.inr ⟨n, rfl, hn⟩)

theorem Overlooked.not_isNumeric (h : Overlooked v) : ¬IsNumeric v := by
  intro hnumeric
  cases h with
  | blank _ hnull hnumber =>
    cases hnumeric with
    | null => cases hnull
    | float _ => cases hnumber
    | int _ => cases hnumber
  | float hinfinite =>
    cases hnumeric with
    | float hfinite =>
      rw [hinfinite] at hfinite
      cases hfinite

/-- An entry that reads as a number is one or is overlooked. -/
theorem Readable.isNumeric_or (h : Readable v) : IsNumeric v ∨ Overlooked v := by
  rcases h with hblank | ⟨x, rfl⟩ | ⟨n, rfl, hn⟩
  · cases v with
    | null => exact .inl .null
    | int n =>
      refine .inl (.int fun hbeyond => ?_)
      exact not_isBlank_of_beyondDouble hbeyond hblank
    | float x =>
      cases hfinite : x.isFinite with
      | true => exact .inl (.float hfinite)
      | false => exact .inr (.float hfinite)
    | _ => exact .inr (.blank hblank rfl rfl)
  · cases hfinite : x.isFinite with
    | true => exact .inl (.float hfinite)
    | false => exact .inr (.float hfinite)
  · exact .inl (.int hn)

theorem entry_eq_complain_iff : entry rollup k = complain why ↔
    ¬Readable (rollup.value k) ∧ ¬(rollup.value k).BeyondDouble ∧ why = .rollupEntry k := by
  rw [← entry_eq_ok_iff]
  fun_cases entry rollup k with
  | case1 v _ => exact iff_of_false ok_ne_error fun h => h.1 ⟨_, rfl⟩
  | case2 v _ n _ x hx => exact iff_of_false ok_ne_error fun h => h.1 ⟨x, rfl⟩
  | case3 v _ n hn hnone =>
    refine iff_of_false complain_ne_faulty.symm fun h => h.2.1 ?_
    exact (beyondDouble_of_ofInt? hn).mpr hnone
  | case4 v _ x _ => exact iff_of_false ok_ne_error fun h => h.1 ⟨x, rfl⟩
  | case5 v _ hint _ =>
    have hbeyond : ¬v.BeyondDouble := by
      rintro ⟨n, hn, _⟩
      exact hint n hn
    have hok : ¬∃ x, (complain (.rollupEntry k) : Outcome Binary64) = .ok x :=
      not_exists.mpr fun _ => ok_ne_error.symm
    rw [and_iff_right hok, and_iff_right hbeyond]
    exact ⟨fun h => by cases h; rfl, fun h => h ▸ rfl⟩

/-! ## Views -/

theorem view_eq_error_iff_of_usable (h : Usable t reference) {e : Failure} :
    view rollup t reference = .error e ↔ (keys t reference).mapM (entry rollup) = .error e := by
  refine (view_eq_error_iff h.days_nonneg).trans (or_iff_left ?_)
  rintro ⟨-, hweek, hearly, -⟩
  have hle := h.week_le hweek
  omega

theorem exists_view_iff (h : Usable t reference) : (∃ v, view rollup t reference = .ok v) ↔
    ∀ k ∈ keys t reference, Readable (rollup.value k) := by
  rw [exists_ok_iff_of_error_iff fun e => view_eq_error_iff_of_usable h, exists_mapM_eq_ok_iff]
  simp only [entry_eq_ok_iff]

/-- A view is refused for the first entry that does not pass for a number. -/
theorem view_eq_complain_iff (h : Usable t reference) : view rollup t reference = complain why ↔
    ∃ k, Reaches (fun k => Readable (rollup.value k)) (keys t reference) k ∧
      ¬Readable (rollup.value k) ∧ ¬(rollup.value k).BeyondDouble ∧ why = .rollupEntry k := by
  have hentry (k : String) : entry rollup k = .error (.badQuery why) ↔ _ := entry_eq_complain_iff
  rw [complain, view_eq_error_iff_of_usable h, mapM_eq_error_iff]
  simp only [Steps, entry_eq_ok_iff, hentry]

/-- A view is shown of numbers and refused for anything else that it reads. -/
structure Guarded (rollup : Record) (t : ViewType) (reference : Date) : Prop where
  shown : (∃ v, view rollup t reference = .ok v) ↔
    ∀ k ∈ keys t reference, IsNumeric (rollup.value k)
  refused : (∃ k ∈ keys t reference, ¬IsNumeric (rollup.value k)) →
    ∃ k ∈ keys t reference, ¬IsNumeric (rollup.value k) ∧
      view rollup t reference = complain (.rollupEntry k)

theorem Guarded.not_beyondDouble (h : Guarded rollup t reference) (hu : Usable t reference)
    (hk : Reaches (fun k => Readable (rollup.value k)) (keys t reference) k) :
    ¬(rollup.value k).BeyondDouble := by
  intro hbeyond
  have hfault := (view_eq_fault_iff hu.days_nonneg).mpr (.double hk hbeyond)
  have hnumeric : ¬IsNumeric (rollup.value k) := by
    obtain ⟨n, hn, hlarge⟩ := hbeyond
    intro hint
    rw [hn] at hint
    cases hint with
    | int hsmall => exact hsmall ⟨n, rfl, hlarge⟩
  obtain ⟨k', _, _, hcomplain⟩ := h.refused ⟨k, hk.mem, hnumeric⟩
  exact complain_ne_faulty (hcomplain.symm.trans hfault)

theorem Guarded.not_overlooked (h : Guarded rollup t reference) (hu : Usable t reference)
    (hreadable : ∀ k ∈ keys t reference, Readable (rollup.value k)) :
    ∀ k ∈ keys t reference, ¬Overlooked (rollup.value k) := by
  intro k hk hoverlooked
  have hnumeric := h.shown.mp ((exists_view_iff hu).mpr hreadable)
  exact hoverlooked.not_isNumeric (hnumeric k hk)

theorem guarded_of (hu : Usable t reference)
    (hdouble : ∀ k, Reaches (fun k => Readable (rollup.value k)) (keys t reference) k →
      ¬(rollup.value k).BeyondDouble)
    (hoverlooked : (∀ k ∈ keys t reference, Readable (rollup.value k)) →
      ∀ k ∈ keys t reference, ¬Overlooked (rollup.value k)) :
    Guarded rollup t reference := by
  have hreadable : (∀ k ∈ keys t reference, Readable (rollup.value k)) ↔
      ∀ k ∈ keys t reference, IsNumeric (rollup.value k) := by
    constructor
    · intro hread k hk
      exact (hread k hk).isNumeric_or.resolve_right (hoverlooked hread k hk)
    · intro hnumeric k hk
      exact readable_of_isNumeric (hnumeric k hk)
  refine ⟨(exists_view_iff hu).trans hreadable, ?_⟩
  rintro ⟨k, hk, hnumeric⟩
  have hread : ¬∀ k ∈ keys t reference, Readable (rollup.value k) := fun hread =>
    hnumeric (hreadable.mp hread k hk)
  obtain ⟨k', hk', hunreadable⟩ := exists_reaches_not hread
  refine ⟨k', hk'.mem, fun h => hunreadable (readable_of_isNumeric h), ?_⟩
  exact (view_eq_complain_iff hu).mpr ⟨k', hk', hunreadable, hdouble k' hk', rfl⟩

/-- When a view is shown and what it is refused for. It tells numbers from other entries unless it
comes upon an integer that no double holds, or is shown although an entry is overlooked. -/
theorem guarded_iff (rollup : Record) (hu : Usable t reference) :
    ((∃ v, view rollup t reference = .ok v) ↔
        ∀ k ∈ keys t reference, Readable (rollup.value k)) ∧
      (∀ why, view rollup t reference = complain why ↔
        ∃ k, Reaches (fun k => Readable (rollup.value k)) (keys t reference) k ∧
          ¬Readable (rollup.value k) ∧ ¬(rollup.value k).BeyondDouble ∧ why = .rollupEntry k) ∧
      (Guarded rollup t reference ↔
        (∀ k, Reaches (fun k => Readable (rollup.value k)) (keys t reference) k →
          ¬(rollup.value k).BeyondDouble) ∧
        ((∀ k ∈ keys t reference, Readable (rollup.value k)) →
          ∀ k ∈ keys t reference, ¬Overlooked (rollup.value k))) := by
  refine ⟨exists_view_iff hu, fun why => view_eq_complain_iff hu, ?_⟩
  constructor
  · intro h
    exact ⟨fun k hk => h.not_beyondDouble hu hk, h.not_overlooked hu⟩
  · rintro ⟨hdouble, hoverlooked⟩
    exact guarded_of hu hdouble hoverlooked

/-- A rollup whose average of one day is a word. -/
def wordy : Record := [("avg_2026-03-14", .text "lots")]

/-- A rollup whose average of one day is false. -/
def untrue : Record := [("avg_2026-03-14", .bool false)]

/-- The fourteenth of March 2026. -/
def marchDay : Date := ⟨739688⟩

theorem usable_marchDay : Usable .week marchDay := ⟨by decide, fun _ => by decide⟩

theorem value_wordy (k : String) : wordy.value k = .null ∨ wordy.value k = .text "lots" := by
  unfold Record.value
  cases hfind : Record.find? wordy k with
  | none => exact .inl rfl
  | some v =>
    have hmem := Assoc.mem_of_lookup hfind
    simp only [wordy, List.mem_singleton, Prod.mk.injEq] at hmem
    exact .inr hmem.2

theorem guarded_iff_wordy :
    Usable .week marchDay ∧ Guarded wordy .week marchDay ∧
      ∃ why, view wordy .week marchDay = complain why := by
  obtain ⟨_, _, hguarded⟩ := guarded_iff wordy usable_marchDay
  have hword : ¬IsNumeric (wordy.value "avg_2026-03-14") := nofun
  have hkey : "avg_2026-03-14" ∈ keys .week marchDay := by decide +kernel
  have hholds : Guarded wordy .week marchDay := by
    refine hguarded.mpr ⟨fun k _ hbeyond => ?_, fun hread => ?_⟩
    · obtain ⟨n, hn, _⟩ := hbeyond
      rcases value_wordy k with hvalue | hvalue <;> cases hvalue.symm.trans hn
    · rcases hread _ hkey with hblank | ⟨x, hx⟩ | ⟨n, hn, _⟩
      · exact absurd hblank (by decide)
      · cases hx
      · cases hn
  obtain ⟨k, _, _, hrefused⟩ := hholds.refused ⟨_, hkey, hword⟩
  exact ⟨usable_marchDay, hholds, _, hrefused⟩

/-- A week is shown although an entry that it reads is false. -/
theorem not_guarded_untrue :
    (∃ v, view untrue .week marchDay = .ok v) ∧ "avg_2026-03-14" ∈ keys .week marchDay ∧
      ¬∀ rollup t reference, Usable t reference → Guarded rollup t reference := by
  have hkey : "avg_2026-03-14" ∈ keys .week marchDay := by decide +kernel
  have hread : ∀ k ∈ keys .week marchDay, (untrue.value k).isBlank = true := by decide +kernel
  have hshown : ∃ v, view untrue .week marchDay = .ok v :=
    (exists_view_iff usable_marchDay).mpr fun k hk => .inl (hread k hk)
  refine ⟨hshown, hkey, fun hall => ?_⟩
  have hnumeric := (hall untrue .week marchDay usable_marchDay).shown.mp hshown _ hkey
  exact absurd hnumeric nofun

end Rollup
end EventQuery
