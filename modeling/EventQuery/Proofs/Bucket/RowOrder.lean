import EventQuery.Proofs.Bucket.Labels
import EventQuery.Proofs.Reduction.Percentile

/-!
# EventQuery.Proofs.Bucket.RowOrder

The store returns rows of one time in any order. A reduction of integers and nulls, or of texts and
nulls, does not depend on it: it comes to the same value or fails in the same way
(`Reduction.reduce_of_perm`), except that distinct values are listed in the order of the rows
(`Reduction.selectUnique_perm`). The same holds of each bucket of an interval
(`reduce_of_perm_rows`).
-/

namespace EventQuery

open Outcome

/-! ## Columns of one kind -/

namespace Value

def IsTextOrNull (v : Value) : Prop := v = null ∨ ∃ s, v = text s

/-- Values of which all but null are integers, or all but null are texts. -/
def Uniform (values : List Value) : Prop :=
  (∀ v ∈ values, v.IsIntegerOrNull) ∨ ∀ v ∈ values, v.IsTextOrNull

/-- Integers, or texts. -/
def OneKind (values : List Value) : Prop :=
  (∀ v ∈ values, ∃ n, v = int n) ∨ ∀ v ∈ values, ∃ s, v = text s

variable {values values' : List Value}

theorem Uniform.of_perm (h : Uniform values) (hperm : values'.Perm values) : Uniform values' :=
  h.imp (fun hints v hv => hints v (hperm.subset hv)) fun htexts v hv => htexts v (hperm.subset hv)

theorem Uniform.subset (h : Uniform values) (hsub : values' ⊆ values) : Uniform values' :=
  h.imp (fun hints v hv => hints v (hsub hv)) fun htexts v hv => htexts v (hsub hv)

theorem Uniform.oneKind_filter (h : Uniform values) : OneKind (values.filter (!·.isNull)) := by
  refine h.imp (fun hints v hv => ?_) fun htexts v hv => ?_
  · obtain ⟨hmem, hpresent⟩ := List.mem_filter.mp hv
    refine (hints v hmem).resolve_left ?_
    rintro rfl
    cases hpresent
  · obtain ⟨hmem, hpresent⟩ := List.mem_filter.mp hv
    refine (htexts v hmem).resolve_left ?_
    rintro rfl
    cases hpresent

theorem Uniform.whole (h : Uniform values) : Percentile.Whole values := by
  intro v hv hnumber
  rcases h with hints | htexts
  · rcases hints v hv with rfl | hint
    · cases hnumber
    · exact hint
  · rcases htexts v hv with rfl | ⟨s, rfl⟩
    · cases hnumber
    · cases hnumber

/-! ## Sums -/

theorem map_int_filterMap (h : ∀ v ∈ values, ∃ n, v = int n) :
    (values.filterMap integer?).map int = values := by
  rw [← Reduction.filter_present fun v hv => .inr (h v hv), List.filter_eq_self]
  intro v hv
  obtain ⟨n, rfl⟩ := h v hv
  rfl

theorem sum_texts (h : ∀ v ∈ values, ∃ s, v = text s) (hne : values ≠ []) :
    sum values = .error (.kinds "int" "str") := by
  cases values with
  | nil => exact absurd rfl hne
  | cons v rest =>
    obtain ⟨⟨s, rfl⟩, _⟩ := List.forall_mem_cons.mp h
    rfl

theorem sum_of_perm (h : OneKind values) (hperm : values'.Perm values) :
    sum values' = sum values := by
  rcases h with hints | htexts
  · have hsum {vs : List Value} (hvs : ∀ v ∈ vs, ∃ n, v = int n) :
        sum vs = .ok (int (vs.filterMap integer?).sum) := by
      have heq := Reduction.sumFrom_ints 0 (vs.filterMap integer?)
      rwa [map_int_filterMap hvs, Int.zero_add] at heq
    rw [hsum hints, hsum fun v hv => hints v (hperm.subset hv), (hperm.filterMap _).sum_eq]
  · by_cases hne : values = []
    · subst hne
      rw [List.perm_nil.mp hperm]
    · have hne' : values' ≠ [] := by
        rintro rfl
        exact hne (List.nil_perm.mp hperm)
      rw [sum_texts htexts hne, sum_texts (fun v hv => htexts v (hperm.subset hv)) hne']

theorem mean_of_perm (h : OneKind values) (hperm : values'.Perm values) :
    mean values' = mean values := by
  have hsum := sum_of_perm h hperm
  have hlength := hperm.length_eq
  cases values with
  | nil => rw [List.perm_nil.mp hperm]
  | cons v rest =>
    cases values' with
    | nil => cases hlength
    | cons v' rest' => simp only [mean, hsum, hlength]

end Value

namespace Reduction

open Value

variable {rows rows' : List Record} {a : Archetype} {target : Option String}
  {rank : Option Binary64} {values values' : List Value} {op : Operator} {shown : String}

theorem keyed_ints (h : ∀ v ∈ values, ∃ n, v = .int n) :
    Keyed (fun v => v.integer?.getD 0) values where
  stands u hu v hv := by
    obtain ⟨m, rfl⟩ := h u hu
    obtain ⟨n, rfl⟩ := h v hv
    exact stands_int m n
  eq_of_key u hu v hv hkey := by
    obtain ⟨m, rfl⟩ := h u hu
    obtain ⟨n, rfl⟩ := h v hv
    exact congrArg Value.int hkey

theorem keyed_texts (h : ∀ v ∈ values, ∃ s, v = .text s) :
    Keyed (fun v => (v.text?.getD "").toList) values where
  stands u hu v hv := by
    obtain ⟨s, rfl⟩ := h u hu
    obtain ⟨t, rfl⟩ := h v hv
    exact ColumnKind.stands_of_key (k := .text) (by decide) rfl rfl
  eq_of_key u hu v hv hkey := by
    obtain ⟨s, rfl⟩ := h u hu
    obtain ⟨t, rfl⟩ := h v hv
    exact congrArg Value.text (String.toList_inj.mp hkey)

/-- The least and the greatest do not depend on the order, and the distinct values do in their
order only. -/
theorem bests_of_perm (h : OneKind values) (hperm : values'.Perm values) :
    best .lt values' = best .lt values ∧ best .gt values' = best .gt values ∧
      (distinct values').Perm (distinct values) := by
  rcases h with hints | htexts
  · have hkeyed := keyed_ints hints
    exact ⟨hkeyed.best_lt_of_perm hperm, hkeyed.best_gt_of_perm hperm, hkeyed.distinct_perm hperm⟩
  · have hkeyed := keyed_texts htexts
    exact ⟨hkeyed.best_lt_of_perm hperm, hkeyed.best_gt_of_perm hperm, hkeyed.distinct_perm hperm⟩

theorem targetValues_perm (target : Option String) (hperm : rows'.Perm rows) :
    (targetValues rows' target).Perm (targetValues rows target) :=
  hperm.map _

theorem presentValues_perm (hperm : rows'.Perm rows) :
    (presentValues rows' target).Perm (presentValues rows target) := by
  rw [presentValues_eq, presentValues_eq]
  exact (targetValues_perm target hperm).filter _

section Perm

variable (h : Uniform (targetValues rows target))
include h

theorem oneKind_presentValues : OneKind (presentValues rows target) := by
  rw [presentValues_eq]
  exact h.oneKind_filter

variable (hperm : rows'.Perm rows)
include hperm

theorem ofValues_targetValues : Percentile.ofValues (targetValues rows' target) rank
    = Percentile.ofValues (targetValues rows target) rank :=
  have hvalues := targetValues_perm target hperm
  Percentile.ofValues_of_perm h.whole (h.of_perm hvalues).whole (hvalues.filterMap _)

theorem reduce_of_perm (ha : a ≠ .selectUnique) :
    reduce rows' a target rank = reduce rows a target rank := by
  have honekind := oneKind_presentValues h
  have hpresent : (presentValues rows' target).Perm (presentValues rows target) :=
    presentValues_perm hperm
  obtain ⟨hleast, hgreatest, hdistinct⟩ := bests_of_perm honekind hpresent
  cases a with
  | count => simp only [reduce, hperm.length_eq]
  | median => simp only [reduce, ofValues_targetValues h hperm]
  | percentile => simp only [reduce, ofValues_targetValues h hperm]
  | minimum => simp only [reduce, ofBest, hleast]
  | maximum => simp only [reduce, ofBest, hgreatest]
  | sum => simp only [reduce, sum_of_perm honekind hpresent]
  | average => simp only [reduce, mean_of_perm honekind hpresent]
  | countUnique => simp only [reduce, hdistinct.length_eq]
  | selectUnique => exact absurd rfl ha
  | extraction => rfl

/-- Distinct values are listed as they are first seen. -/
theorem selectUnique_perm (rank : Option Binary64) :
    ∃ vs vs', reduce rows .selectUnique target rank = .ok (.array vs) ∧
      reduce rows' .selectUnique target rank = .ok (.array vs') ∧ vs'.Perm vs :=
  ⟨_, _, rfl, rfl, (bests_of_perm (oneKind_presentValues h) (presentValues_perm hperm)).2.2⟩

end Perm

/-- Two results of an archetype that differ at most in the order of distinct values. -/
def Agree (a : Archetype) (v v' : Value) : Prop :=
  match a with
  | .selectUnique => ∃ vs vs', v = .array vs ∧ v' = .array vs' ∧ vs'.Perm vs
  | _ => v = v'

theorem agree_eq (ha : a ≠ .selectUnique) : Agree a = Eq := by
  cases a with
  | selectUnique => exact absurd rfl ha
  | _ => rfl

theorem alike_reduce_of_perm (a : Archetype) (rank : Option Binary64)
    (h : Uniform (targetValues rows target)) (hperm : rows'.Perm rows) :
    Alike (Agree a) (reduce rows a target rank) (reduce rows' a target rank) := by
  by_cases ha : a = .selectUnique
  · subst ha
    obtain ⟨vs, vs', hvs, hvs', hlisted⟩ := selectUnique_perm h hperm rank
    rw [hvs, hvs']
    exact .ok ⟨vs, vs', rfl, rfl, hlisted⟩
  · rw [agree_eq ha]
    exact alike_eq_iff.mpr (reduce_of_perm h hperm ha).symm

end Reduction

/-! ## Buckets -/

namespace Bucket

variable {i : Interval} {rows rows' : List Record} {a : Archetype} {target : Option String}
  {rank : Option Binary64} {b b' : Bucket}

/-- The entry of one bucket in two answers. -/
def EntriesAgree (i : Interval) (a : Archetype) (e e' : Value) : Prop :=
  ∃ b result result', e = entry i b result ∧ e' = entry i b result' ∧
    Reduction.Agree a result result'

theorem alike_reduceOne (hstart : b'.start = b.start)
    (h : Alike (Reduction.Agree a) (Reduction.reduce b.rows a target rank)
      (Reduction.reduce b'.rows a target rank)) :
    Alike (EntriesAgree i a) (reduceOne i a target rank b) (reduceOne i a target rank b') := by
  unfold reduceOne
  rw [hstart]
  unfold label
  cases Calendar.inYears b.start with
  | false => exact .error _
  | true => exact h.map fun result result' hagree => ⟨b, result, result', rfl, rfl, hagree⟩

theorem entriesAgree_eq (ha : a ≠ .selectUnique) {e e' : Value} (h : EntriesAgree i a e e') :
    e = e' := by
  obtain ⟨b, result, result', rfl, rfl, hagree⟩ := h
  rw [Reduction.agree_eq ha] at hagree
  rw [hagree]

/-- Two answers with the same entries, up to the order of distinct values. -/
def AnswersAgree (i : Interval) (a : Archetype) (v v' : Value) : Prop :=
  ∃ es es', v = .array es ∧ v' = .array es' ∧ List.Forall₂ (EntriesAgree i a) es es'

theorem answersAgree_eq (ha : a ≠ .selectUnique) {v v' : Value} (h : AnswersAgree i a v v') :
    v = v' := by
  obtain ⟨es, es', rfl, rfl, hes⟩ := h
  have heq : List.Forall₂ Eq es es' := hes.imp fun _ _ he => entriesAgree_eq ha he
  rw [List.forall₂_eq_eq_eq] at heq
  rw [heq]

theorem reduce_eq_of_partition {buckets : List Bucket} (h : partition rows i = .ok buckets) :
    Bucket.reduce rows i a target rank
      = (buckets.mapM (reduceOne i a target rank)).map .array := by
  rw [Bucket.reduce, h]
  dsimp only
  rw [reduceAll_eq_mapM]

/-- The buckets of rows that each have a time, in two orders of the rows. -/
theorem partitions_of_perm (hperm : rows'.Perm rows)
    (hrows : ∀ row ∈ rows, ∃ start, startOf (timeOf row) i = .ok start) :
    ∃ buckets buckets', partition rows i = .ok buckets ∧ partition rows' i = .ok buckets' ∧
      (∀ b ∈ buckets, b.rows ⊆ rows) ∧
      List.Forall₂ (fun b b' => b'.start = b.start ∧ b'.rows.Perm b.rows) buckets buckets' := by
  obtain ⟨starts, hstarts, hpartition⟩ := partition_eq_bucketsAt hrows
  obtain ⟨starts', hstarts', hpartition'⟩ :=
    partition_eq_bucketsAt fun row hrow => hrows row (hperm.mem_iff.mp hrow)
  obtain rfl := hstarts.eq_of_perm hstarts' hperm
  refine ⟨_, _, hpartition, hpartition', fun b hb row hrow => ?_, forall₂_bucketsAt_of_perm hperm⟩
  rw [(mem_bucketsAt.mp hb).2] at hrow
  exact (mem_rowsAt.mp hrow).1

theorem partition_eq_error_of_row (h : ¬∀ row ∈ rows, ∃ start, startOf (timeOf row) i = .ok start) :
    ∃ e, partition rows i = .error e := by
  cases hpartition : partition rows i with
  | error e => exact ⟨e, rfl⟩
  | ok buckets => exact absurd (exists_partition_eq_ok_iff.mp ⟨buckets, hpartition⟩) h

/-- Reductions of rows do not depend on their order, and nor do those of the buckets of an interval.
Distinct values are listed in another order at most. -/
theorem reduce_of_perm_rows (a : Archetype) (rank : Option Binary64) (hperm : rows'.Perm rows)
    (h : Value.Uniform (Reduction.targetValues rows target)) :
    (a ≠ .selectUnique →
        Reduction.reduce rows' a target rank = Reduction.reduce rows a target rank) ∧
      (∃ vs vs', Reduction.reduce rows .selectUnique target rank = .ok (.array vs) ∧
        Reduction.reduce rows' .selectUnique target rank = .ok (.array vs') ∧ vs'.Perm vs) ∧
      ∀ i,
        (∃ buckets buckets', partition rows i = .ok buckets ∧ partition rows' i = .ok buckets' ∧
          List.Forall₂ (fun b b' => b'.start = b.start ∧
            Alike (Reduction.Agree a) (Reduction.reduce b.rows a target rank)
              (Reduction.reduce b'.rows a target rank)) buckets buckets' ∧
          (a ≠ .selectUnique →
            Bucket.reduce rows' i a target rank = Bucket.reduce rows i a target rank) ∧
          Alike (AnswersAgree i a) (Bucket.reduce rows i a target rank)
            (Bucket.reduce rows' i a target rank)) ∨
        (∃ e, partition rows i = .error e) ∧ ∃ e, partition rows' i = .error e := by
  refine ⟨Reduction.reduce_of_perm h hperm, Reduction.selectUnique_perm h hperm rank, fun i => ?_⟩
  by_cases hrows : ∀ row ∈ rows, ∃ start, startOf (timeOf row) i = .ok start
  · obtain ⟨buckets, buckets', hpartition, hpartition', hparts, hbuckets⟩ :=
      partitions_of_perm hperm hrows
    have hreduced := ((List.forall₂_and_left _ _).mpr ⟨hparts, hbuckets⟩).imp
      fun b b' ⟨hpart, hstart, hsame⟩ => And.intro hstart <|
        Reduction.alike_reduce_of_perm a rank (h.subset (List.map_subset _ hpart)) hsame
    have hentries : List.Forall₂ (fun b b' => Alike (EntriesAgree i a)
        (reduceOne i a target rank b) (reduceOne i a target rank b')) buckets buckets' :=
      hreduced.imp fun b b' ⟨hstart, hb⟩ => alike_reduceOne hstart hb
    have halike : Alike (AnswersAgree i a) (Bucket.reduce rows i a target rank)
        (Bucket.reduce rows' i a target rank) := by
      rw [reduce_eq_of_partition hpartition, reduce_eq_of_partition hpartition']
      exact (alike_mapM hentries).map fun es es' hes => ⟨es, es', rfl, rfl, hes⟩
    refine .inl ⟨buckets, buckets', hpartition, hpartition', hreduced, fun ha => ?_, halike⟩
    exact (alike_eq_iff.mp (halike.imp fun v v' hv => answersAgree_eq ha hv)).symm
  · have hrows' : ¬∀ row ∈ rows', ∃ start, startOf (timeOf row) i = .ok start := fun hall =>
      hrows fun row hrow => hall row (hperm.mem_iff.mpr hrow)
    exact .inr ⟨partition_eq_error_of_row hrows, partition_eq_error_of_row hrows'⟩

/-- Three rows of one time. -/
def sameTime : List Record :=
  [.int 3, .null, .int 1].map fun volts => [(Name.timestampColumn, .int 0), ("volts", volts)]

theorem reduce_of_perm_rows_sameTime :
    Reduction.reduce sameTime.reverse .median (some "volts") none
        = Reduction.reduce sameTime .median (some "volts") none ∧
      Bucket.reduce sameTime.reverse .hourly .median (some "volts") none
        = Bucket.reduce sameTime .hourly .median (some "volts") none := by
  have huniform : Value.Uniform (Reduction.targetValues sameTime (some "volts")) := by
    refine .inl ?_
    simp only [Reduction.targetValues, sameTime, List.map_cons, List.map_nil, List.forall_mem_cons]
    exact ⟨.inr ⟨3, rfl⟩, .inl rfl, .inr ⟨1, rfl⟩, by simp⟩
  have htimes : ∀ row ∈ sameTime, ∃ start, startOf (timeOf row) .hourly = .ok start := by
    simp only [sameTime, List.map_cons, List.map_nil, List.forall_mem_cons]
    exact ⟨⟨_, rfl⟩, ⟨_, rfl⟩, ⟨_, rfl⟩, by simp⟩
  obtain ⟨hrows, -, hbuckets⟩ :=
    reduce_of_perm_rows .median none (List.reverse_perm sameTime) huniform
  refine ⟨hrows (by decide), ?_⟩
  rcases hbuckets .hourly with ⟨_, _, _, _, _, hreduced, _⟩ | ⟨⟨e, he⟩, _⟩
  · exact hreduced (by decide)
  · obtain ⟨buckets, hbuckets⟩ := exists_partition_eq_ok_iff.mpr htimes
    rw [hbuckets] at he
    cases he

end Bucket
end EventQuery
