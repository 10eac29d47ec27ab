import EventQuery.Proofs.Bucket.Alignment
import EventQuery.Proofs.Bucket.Partition
import EventQuery.Proofs.Calendar.Label

/-!
# EventQuery.Proofs.Bucket.Labels

What rows split by an interval and reduced come to: one entry for each bucket, of the name of its
grid point and its reduced value (`reduce_eq_ok_iff`). Buckets begin at different grid points, and
a name tells grid points of an interval apart, so the entries have different names
(`labels_tell_apart`).
-/

namespace EventQuery
namespace Bucket

open Outcome

variable {i : Interval} {rows : List Record} {a : Archetype} {target : Option String}
  {rank : Option Binary64} {v : Value}

/-- The entry of a bucket with its reduced value. -/
def entry (i : Interval) (b : Bucket) (result : Value) : Value :=
  .object [("interval", .text (i.label b.start)), ("result", result)]

theorem reduceOne_eq_ok {b : Bucket} : reduceOne i a target rank b = .ok v ↔
    Calendar.inYears b.start = true ∧
      ∃ result, Reduction.reduce b.rows a target rank = .ok result ∧ v = entry i b result := by
  unfold reduceOne label
  cases Calendar.inYears b.start with
  | false => exact iff_of_false nofun nofun
  | true =>
    rw [and_iff_right rfl]
    cases Reduction.reduce b.rows a target rank with
    | error e => exact iff_of_false nofun nofun
    | ok result =>
      constructor
      · intro h
        exact ⟨result, rfl, (Except.ok.inj h).symm⟩
      · rintro ⟨result', hresult, rfl⟩
        rw [Except.ok.inj hresult]
        rfl

theorem reduce_eq_ok_iff :
    Bucket.reduce rows i a target rank = .ok v ↔
      ∃ buckets entries, partition rows i = .ok buckets ∧ v = .array entries ∧
        (∀ b ∈ buckets, Calendar.inYears b.start = true) ∧
        List.Forall₂ (fun b e => ∃ result, Reduction.reduce b.rows a target rank = .ok result ∧
          e = entry i b result) buckets entries := by
  simp only [← List.forall₂_and_left, ← reduceOne_eq_ok, ← mapM_eq_ok_iff]
  unfold Bucket.reduce
  constructor
  · intro h
    cases hpartition : partition rows i with
    | error e =>
      rw [hpartition] at h
      cases h
    | ok buckets =>
      rw [hpartition] at h
      obtain ⟨entries, hentries, rfl⟩ := map_eq_ok h
      rw [reduceAll_eq_mapM] at hentries
      exact ⟨buckets, entries, rfl, rfl, hentries⟩
  · rintro ⟨buckets, entries, hpartition, rfl, hentries⟩
    rw [hpartition]
    dsimp only
    rw [reduceAll_eq_mapM, hentries]
    rfl

/-- The name in an entry. -/
def intervalOf : Value → Option String
  | .object fields => (Record.value fields "interval").text?
  | _ => none

theorem label_eq {start : Int} (h : Calendar.inYears start = true) :
    label start i = .ok (i.label start) := by
  rw [label, if_pos h]

theorem isGridPoint_of_startOf {start : Int} (h : startOf v i = .ok start) :
    i.IsGridPoint start := by
  obtain ⟨t, _, rfl⟩ := startOf_eq_floor_iff.mp h
  exact i.isGridPoint_floor t.instant

theorem start_eq_of_label {w : Value} {start start' : Int} (hv : startOf v i = .ok start)
    (hw : startOf w i = .ok start') (h : Calendar.inYears start = true)
    (h' : Calendar.inYears start' = true) (hlabel : i.label start = i.label start') :
    start = start' := by
  have hgrid := isGridPoint_of_startOf hv
  have hgrid' := isGridPoint_of_startOf hw
  simp only [Calendar.inYears, Bool.and_eq_true, decide_eq_true_eq] at h h'
  exact Interval.label_inj h.1 h'.1 hgrid hgrid' hlabel

/-- The names of buckets are different. -/
theorem nodup_labels {starts : List Int} (h : Starts i rows starts)
    (hyears : ∀ start ∈ starts, Calendar.inYears start = true) : (starts.map i.label).Nodup := by
  refine List.Nodup.map_on (fun start hstart start' hstart' hlabel => ?_)
    (h.ascending.imp fun hlt => hlt.ne)
  obtain ⟨row, _, hrow⟩ := (h.mem_iff start).mp hstart
  obtain ⟨row', _, hrow'⟩ := (h.mem_iff start').mp hstart'
  exact start_eq_of_label hrow hrow' (hyears start hstart) (hyears start' hstart') hlabel

theorem map_intervalOf {buckets : List Bucket} {entries : List Value}
    (h : List.Forall₂ (fun b e => ∃ result, Reduction.reduce b.rows a target rank = .ok result ∧
      e = entry i b result) buckets entries) :
    entries.map intervalOf = (buckets.map fun b => i.label b.start).map some := by
  induction h with
  | nil => rfl
  | cons hentry _ ih =>
    obtain ⟨result, _, rfl⟩ := hentry
    rw [List.map_cons, ih]
    rfl

theorem labels_tell_apart (i : Interval) :
    (∀ v w start start', startOf v i = .ok start → startOf w i = .ok start' →
        Calendar.inYears start = true → Calendar.inYears start' = true →
        label start i = label start' i → start = start') ∧
      ∀ rows a target rank v, Bucket.reduce rows i a target rank = .ok v →
        ∃ buckets entries, partition rows i = .ok buckets ∧ v = .array entries ∧
          (buckets.map Bucket.start).Pairwise (· < ·) ∧
          List.Forall₂ (fun b e => ∃ name result, label b.start i = .ok name ∧
            Reduction.reduce b.rows a target rank = .ok result ∧
            e = .object [("interval", .text name), ("result", result)]) buckets entries ∧
          (entries.map intervalOf).Nodup := by
  constructor
  · intro v w start start' hv hw h h' hlabel
    rw [label_eq h, label_eq h'] at hlabel
    exact start_eq_of_label hv hw h h' (Except.ok.inj hlabel)
  · intro rows a target rank v h
    obtain ⟨buckets, entries, hpartition, hv, hyears, hentries⟩ := reduce_eq_ok_iff.mp h
    obtain ⟨starts, hstarts, hbuckets⟩ := partition_eq_ok hpartition
    have hmap : buckets.map Bucket.start = starts := by rw [hbuckets, map_start_bucketsAt]
    refine ⟨buckets, entries, hpartition, hv, by rw [hmap]; exact hstarts.ascending, ?_, ?_⟩
    · refine ((List.forall₂_and_left _ _).mpr ⟨hyears, hentries⟩).imp ?_
      rintro b e ⟨hyear, result, hresult, he⟩
      exact ⟨i.label b.start, result, label_eq hyear, hresult, he⟩
    · have hyears' : ∀ start ∈ starts, Calendar.inYears start = true := by
        rw [← hmap]
        exact List.forall_mem_map.mpr hyears
      have hlabels : (buckets.map fun b => i.label b.start) = starts.map i.label := by
        rw [← hmap, List.map_map]
        rfl
      rw [map_intervalOf hentries, hlabels]
      exact (nodup_labels hstarts hyears').map (Option.some_injective String)

/-- Two rows of one day and one of the next, counted by day. -/
theorem labels_tell_apart_mixedTimes :
    (∃ start start', startOf (.date (Civil.date ⟨2026, 3, 15⟩)) .daily = .ok start ∧
        startOf (.int 1773570600000) .daily = .ok start' ∧
        label start .daily = label start' .daily ∧ start = start') ∧
      ∃ v buckets entries, Bucket.reduce mixedTimes .daily .count none none = .ok v ∧
        partition mixedTimes .daily = .ok buckets ∧ v = .array entries ∧
        (buckets.map Bucket.start).Pairwise (· < ·) ∧ (entries.map intervalOf).Nodup := by
  obtain ⟨hinjective, hdistinct⟩ := labels_tell_apart .daily
  constructor
  · have hday : startOf (.date (Civil.date ⟨2026, 3, 15⟩)) .daily
        = .ok ((Civil.date ⟨2026, 3, 15⟩).days * Calendar.microsPerDay) := by decide
    have hmillis : startOf (.int 1773570600000) .daily
        = .ok ((Civil.date ⟨2026, 3, 15⟩).days * Calendar.microsPerDay) := by decide
    have hyears : Calendar.inYears ((Civil.date ⟨2026, 3, 15⟩).days * Calendar.microsPerDay)
        = true := by decide
    exact ⟨_, _, hday, hmillis, rfl, hinjective _ _ _ _ hday hmillis hyears hyears rfl⟩
  · obtain ⟨v, hv⟩ : ∃ v, Bucket.reduce mixedTimes .daily .count none none = .ok v := ⟨_, rfl⟩
    obtain ⟨buckets, entries, hpartition, hentries, hascending, _, hnodup⟩ :=
      hdistinct _ _ _ _ _ hv
    exact ⟨v, buckets, entries, hv, hpartition, hentries, hascending, hnodup⟩

end Bucket
end EventQuery
