import EventQuery.Proofs.Bucket.Nesting

/-!
# EventQuery.Proofs.Bucket.Recombination

The reductions of all rows from those of their buckets, which are reduced only if each has a name
(`named_of_reduce_eq_ok`). The buckets of an interval hold each row once, so the integers of a
property are those of the buckets (`targetIntegers_perm`), and what a reduction makes of them is
made of what it makes of each bucket: sums add up, the least of all is the least of the buckets
(`isBest_flatMap`), and distinct values are those of some bucket (`recombines`).
-/

namespace EventQuery

namespace Reduction

variable {rows : List Record} {target : Option String} {rank : Option Binary64} {v : Value}

/-- The integers among the values of a property. -/
def targetIntegers (rows : List Record) (target : Option String) : List Int :=
  (targetValues rows target).filterMap Value.integer?

/-- The property of a request holds integers and nulls; without one there are only nulls. -/
def IntegersOrNulls (target : Option String) (rows : List Record) : Prop :=
  ∀ c ∈ target, ∀ row ∈ rows, (Record.value row c).IsIntegerOrNull

theorem IntegersOrNulls.subset {part : List Record} (h : IntegersOrNulls target rows)
    (hpart : part ⊆ rows) : IntegersOrNulls target part :=
  fun c hc row hrow => h c hc row (hpart hrow)

theorem IntegersOrNulls.presentValues_eq (h : IntegersOrNulls target rows) :
    presentValues rows target = (targetIntegers rows target).map .int := by
  rw [Reduction.presentValues_eq]
  refine filter_present (List.forall_mem_map.mpr fun row hrow => ?_)
  cases target with
  | none => exact .inl rfl
  | some c => exact h c rfl row hrow

/-- The best of some integers by a key; null without any. -/
def IsBest (key : Int → Int) (ns : List Int) (v : Value) : Prop :=
  ns = [] ∧ v = .null ∨ ∃ n ∈ ns, (∀ m ∈ ns, key n ≤ key m) ∧ v = .int n

theorem IsBest.isIntegerOrNull {key : Int → Int} {ns : List Int} (h : IsBest key ns v) :
    v.IsIntegerOrNull :=
  h.imp And.right fun ⟨n, _, _, hv⟩ => ⟨n, hv⟩

theorem isBest_id {column : List Value} :
    Aggregate.least.Denotes column v ↔ IsBest id (column.filterMap Value.integer?) v :=
  or_congr_right (exists_congr fun _ => and_assoc)

theorem isBest_neg {column : List Value} :
    Aggregate.greatest.Denotes column v ↔
      IsBest (fun n => -n) (column.filterMap Value.integer?) v := by
  simp only [IsBest, neg_le_neg_iff]
  exact or_congr_right (exists_congr fun _ => and_assoc)

theorem IsBest.of_perm {key : Int → Int} {ns ms : List Int} (h : IsBest key ns v)
    (hperm : ms.Perm ns) : IsBest key ms v := by
  refine h.imp (fun ⟨hnil, hv⟩ => ⟨List.perm_nil.mp (hnil ▸ hperm), hv⟩) ?_
  rintro ⟨n, hn, hbest, hv⟩
  exact ⟨n, hperm.mem_iff.mpr hn, fun m hm => hbest m (hperm.mem_iff.mp hm), hv⟩

theorem IsBest.int_iff {key : Int → Int} {ns : List Int} {n : Int} :
    IsBest key ns (.int n) ↔ n ∈ ns ∧ ∀ m ∈ ns, key n ≤ key m := by
  constructor
  · rintro (⟨_, hnull⟩ | ⟨m, hm, hbest, heq⟩)
    · cases hnull
    · cases heq
      exact ⟨hm, hbest⟩
  · rintro ⟨hn, hbest⟩
    exact .inr ⟨n, hn, hbest, rfl⟩

/-- The best of several lists is the best of what is best in each. -/
theorem isBest_flatMap {α : Type} {key : Int → Int} (hkey : Function.Injective key) {xs : List α}
    {parts : α → List Int} {bests : α → Value} (h : ∀ x ∈ xs, IsBest key (parts x) (bests x))
    (hv : IsBest key (xs.flatMap parts) v) :
    IsBest key ((xs.map bests).filterMap Value.integer?) v := by
  have hmem {n : Int} : n ∈ (xs.map bests).filterMap Value.integer? ↔
      ∃ x ∈ xs, bests x = .int n := by
    rw [Value.mem_filterMap_integer?, List.mem_map]
  -- what is best in one list is in all of them together
  have hpart {n : Int} (hn : n ∈ (xs.map bests).filterMap Value.integer?) :
      n ∈ xs.flatMap parts := by
    obtain ⟨x, hx, hxn⟩ := hmem.mp hn
    exact List.mem_flatMap.mpr ⟨x, hx, (IsBest.int_iff.mp (hxn ▸ h x hx)).1⟩
  rcases hv with ⟨hnil, rfl⟩ | ⟨n, hn, hbest, rfl⟩
  · refine .inl ⟨List.eq_nil_iff_forall_not_mem.mpr fun n hn => ?_, rfl⟩
    have := hpart hn
    rw [hnil] at this
    cases this
  · refine IsBest.int_iff.mpr ⟨?_, fun m hm => hbest m (hpart hm)⟩
    obtain ⟨x, hx, hnx⟩ := List.mem_flatMap.mp hn
    rcases h x hx with ⟨hnil, _⟩ | ⟨m, hm, hbest', heq⟩
    · rw [hnil] at hnx
      cases hnx
    · have hmn : key m = key n :=
        le_antisymm (hbest' n hnx) (hbest m (List.mem_flatMap.mpr ⟨x, hx, hm⟩))
      exact hmem.mpr ⟨x, hx, by rw [heq, hkey hmn]⟩

/-! ## Reductions of integers -/

theorem IntegersOrNulls.reduce_minimum (h : IntegersOrNulls target rows)
    (rank : Option Binary64) :
    ∃ v, reduce rows .minimum target rank = .ok v ∧ IsBest id (targetIntegers rows target) v := by
  have hop (a b : Int) : Operator.lt.Relates a b ↔ id a < id b := Iff.rfl
  simp only [reduce, h.presentValues_eq]
  exact ofBest_ints hop _

theorem IntegersOrNulls.reduce_maximum (h : IntegersOrNulls target rows)
    (rank : Option Binary64) :
    ∃ v, reduce rows .maximum target rank = .ok v ∧
      IsBest (fun n => -n) (targetIntegers rows target) v := by
  have hop (a b : Int) : Operator.gt.Relates a b ↔ -a < -b := neg_lt_neg_iff.symm
  simp only [reduce, h.presentValues_eq]
  exact ofBest_ints hop _

/-- The distinct integers of a property, in some order. -/
theorem IntegersOrNulls.distinct_eq (h : IntegersOrNulls target rows) :
    ∃ ds : List Int, distinct (presentValues rows target) = ds.map .int ∧ ds.Nodup ∧
      ∀ n, n ∈ ds ↔ n ∈ targetIntegers rows target := by
  rw [h.presentValues_eq]
  exact distinct_ints _

theorem IntegersOrNulls.reduce_selectUnique (h : IntegersOrNulls target rows)
    (rank : Option Binary64) :
    ∃ ds : List Int, reduce rows .selectUnique target rank = .ok (.array (ds.map .int)) ∧
      ∀ n, n ∈ ds ↔ n ∈ targetIntegers rows target := by
  obtain ⟨ds, hds, _, hmem⟩ := h.distinct_eq
  exact ⟨ds, by simp only [reduce, hds], hmem⟩

theorem IntegersOrNulls.reduce_countUnique (h : IntegersOrNulls target rows)
    (rank : Option Binary64) :
    reduce rows .countUnique target rank
      = .ok (.int (targetIntegers rows target).toFinset.card) := by
  obtain ⟨ds, hds, hnodup, hmem⟩ := h.distinct_eq
  have hsame : ds.toFinset = (targetIntegers rows target).toFinset := by
    ext n
    simp [hmem]
  simp only [reduce, hds, List.length_map, ← hsame, List.toFinset_card_of_nodup hnodup]

theorem card_flatMap_le {α : Type} (xs : List α) (parts : α → List Int) :
    (xs.flatMap parts).toFinset.card ≤ (xs.map fun x => (parts x).toFinset.card).sum := by
  induction xs with
  | nil => exact Nat.zero_le _
  | cons x rest ih =>
    rw [List.flatMap_cons, List.toFinset_append, List.map_cons, List.sum_cons]
    exact (Finset.card_union_le _ _).trans (Nat.add_le_add_left ih _)

end Reduction

namespace Bucket

variable {i : Interval} {rows : List Record} {target : Option String} {rank : Option Binary64}
  {buckets : List Bucket}

/-- The time of a row is in a bucket that has a name. -/
def Named (i : Interval) (row : Record) : Prop :=
  ∃ start, startOf (timeOf row) i = .ok start ∧ Calendar.inYears start = true

theorem named_of_moment {row : Record} {t : DateTime} (ht : (timeOf row).moment? = some t)
    (hyears : Calendar.inYears t.instant = true) : Named i row :=
  ⟨_, startOf_of_moment i ht, i.inYears_floor hyears⟩

theorem named_of_reduce_eq_ok {a : Archetype} {v : Value}
    (h : Bucket.reduce rows i a target rank = .ok v) : ∀ row ∈ rows, Named i row := by
  intro row hrow
  obtain ⟨buckets, _, hpartition, _, hyears, _⟩ := reduce_eq_ok_iff.mp h
  have hrows := exists_partition_eq_ok_iff.mp ⟨buckets, hpartition⟩
  obtain ⟨starts, hstarts, hbuckets⟩ := partition_eq_bucketsAt hrows
  rw [hpartition, Except.ok.injEq] at hbuckets
  subst hbuckets
  obtain ⟨start, hstart⟩ := hrows row hrow
  exact ⟨start, hstart, hyears ⟨start, rowsAt i rows start⟩
    (mem_bucketsAt.mpr ⟨(hstarts.mem_iff start).mpr ⟨row, hrow, hstart⟩, rfl⟩)⟩

/-- One entry for each bucket. -/
def answer (i : Interval) (buckets : List Bucket) (result : Bucket → Value) : Value :=
  .array (buckets.map fun b => entry i b (result b))

/-- The buckets of some rows, each with a name, over a property that holds integers and nulls. -/
structure Divides (i : Interval) (target : Option String) (rows : List Record)
    (buckets : List Bucket) : Prop where
  partition_eq : partition rows i = .ok buckets
  inYears : ∀ b ∈ buckets, Calendar.inYears b.start = true
  complete : (buckets.flatMap Bucket.rows).Perm rows
  integers : Reduction.IntegersOrNulls target rows

theorem exists_divides (h : ∀ row ∈ rows, Named i row)
    (hints : Reduction.IntegersOrNulls target rows) : ∃ buckets, Divides i target rows buckets := by
  have hrows : ∀ row ∈ rows, ∃ start, startOf (timeOf row) i = .ok start := fun row hrow =>
    (h row hrow).imp fun _ => And.left
  obtain ⟨starts, hstarts, hpartition⟩ := partition_eq_bucketsAt hrows
  refine ⟨_, hpartition, fun b hb => ?_, (isSplit_bucketsAt hstarts hrows).complete, hints⟩
  obtain ⟨row, hrow, hgoes⟩ := (hstarts.mem_iff _).mp (mem_bucketsAt.mp hb).1
  obtain ⟨start, hstart, hyears⟩ := h row hrow
  rw [hstart, Except.ok.injEq] at hgoes
  rwa [← hgoes]

namespace Divides

variable (h : Divides i target rows buckets)
include h

theorem reduce_eq {a : Archetype} {result : Bucket → Value}
    (hresult : ∀ b ∈ buckets, Reduction.reduce b.rows a target rank = .ok (result b)) :
    Bucket.reduce rows i a target rank = .ok (answer i buckets result) := by
  refine reduce_eq_ok_iff.mpr ⟨_, _, h.partition_eq, rfl, h.inYears, ?_⟩
  rw [List.forall₂_map_right_iff, List.forall₂_same]
  exact fun b hb => ⟨_, hresult b hb, rfl⟩

theorem rows_subset {b : Bucket} (hb : b ∈ buckets) : b.rows ⊆ rows := fun _ hrow =>
  h.complete.subset (List.mem_flatMap.mpr ⟨b, hb, hrow⟩)

theorem bucket_integers {b : Bucket} (hb : b ∈ buckets) :
    Reduction.IntegersOrNulls target b.rows :=
  h.integers.subset (h.rows_subset hb)

theorem targetIntegers_perm : (Reduction.targetIntegers rows target).Perm
    (buckets.flatMap fun b => Reduction.targetIntegers b.rows target) := by
  have hperm := ((h.complete.map fun r => (target.map (Record.value r)).getD .null).filterMap
    Value.integer?).symm
  rwa [List.map_flatMap, List.filterMap_flatMap] at hperm

theorem mem_targetIntegers {n : Int} : n ∈ Reduction.targetIntegers rows target ↔
    ∃ b ∈ buckets, n ∈ Reduction.targetIntegers b.rows target := by
  rw [h.targetIntegers_perm.mem_iff, List.mem_flatMap]

theorem totals {a : Archetype} (hadds : Reduction.Additive a target rows)
    (rank : Option Binary64) :
    Bucket.reduce rows i a target rank = .ok (answer i buckets fun b => .int (total a target b)) ∧
      Reduction.reduce rows a target rank = .ok (.int (buckets.map (total a target)).sum) := by
  constructor
  · exact h.reduce_eq fun b hb => Reduction.reduce_additive (hadds.subset (h.rows_subset hb))
  · rw [← total_eq_sum (b := ⟨0, rows⟩) h.complete.symm]
    exact Reduction.reduce_additive hadds

theorem minima (rank : Option Binary64) : ∃ minima v,
    Bucket.reduce rows i .minimum target rank = .ok (answer i buckets minima) ∧
      Reduction.reduce rows .minimum target rank = .ok v ∧
      (∀ b ∈ buckets, (minima b).IsIntegerOrNull) ∧
      Aggregate.least.Denotes (buckets.map minima) v := by
  choose! minima hminima hbest using
    fun b (hb : b ∈ buckets) => (h.bucket_integers hb).reduce_minimum rank
  obtain ⟨v, hv, hleast⟩ := h.integers.reduce_minimum rank
  refine ⟨minima, v, h.reduce_eq hminima, hv, fun b hb => (hbest b hb).isIntegerOrNull, ?_⟩
  exact Reduction.isBest_id.mpr <| Reduction.isBest_flatMap Function.injective_id hbest <|
    hleast.of_perm h.targetIntegers_perm.symm

theorem maxima (rank : Option Binary64) : ∃ maxima v,
    Bucket.reduce rows i .maximum target rank = .ok (answer i buckets maxima) ∧
      Reduction.reduce rows .maximum target rank = .ok v ∧
      (∀ b ∈ buckets, (maxima b).IsIntegerOrNull) ∧
      Aggregate.greatest.Denotes (buckets.map maxima) v := by
  choose! maxima hmaxima hbest using
    fun b (hb : b ∈ buckets) => (h.bucket_integers hb).reduce_maximum rank
  obtain ⟨v, hv, hgreatest⟩ := h.integers.reduce_maximum rank
  refine ⟨maxima, v, h.reduce_eq hmaxima, hv, fun b hb => (hbest b hb).isIntegerOrNull, ?_⟩
  exact Reduction.isBest_neg.mpr <| Reduction.isBest_flatMap neg_injective hbest <|
    hgreatest.of_perm h.targetIntegers_perm.symm

theorem members (rank : Option Binary64) : ∃ (members : Bucket → List Value) (all : List Value),
    Bucket.reduce rows i .selectUnique target rank
        = .ok (answer i buckets fun b => .array (members b)) ∧
      Reduction.reduce rows .selectUnique target rank = .ok (.array all) ∧
      ∀ v, v ∈ all ↔ ∃ b ∈ buckets, v ∈ members b := by
  choose! members hmembers hmem using
    fun b (hb : b ∈ buckets) => (h.bucket_integers hb).reduce_selectUnique rank
  obtain ⟨all, hall, hmemAll⟩ := h.integers.reduce_selectUnique rank
  refine ⟨fun b => (members b).map .int, all.map .int, h.reduce_eq hmembers, hall, fun v => ?_⟩
  simp only [List.mem_map, hmemAll, h.mem_targetIntegers]
  constructor
  · rintro ⟨n, ⟨b, hb, hn⟩, rfl⟩
    exact ⟨b, hb, n, (hmem b hb n).mpr hn, rfl⟩
  · rintro ⟨b, hb, n, hn, rfl⟩
    exact ⟨n, ⟨b, hb, (hmem b hb n).mp hn⟩, rfl⟩

theorem tallies (rank : Option Binary64) : ∃ (tallies : Bucket → Nat) (tally : Nat),
    Bucket.reduce rows i .countUnique target rank
        = .ok (answer i buckets fun b => .int (tallies b)) ∧
      Reduction.reduce rows .countUnique target rank = .ok (.int tally) ∧
      (∀ b ∈ buckets, tallies b ≤ tally) ∧ tally ≤ (buckets.map tallies).sum := by
  refine ⟨fun b => (Reduction.targetIntegers b.rows target).toFinset.card, _,
    h.reduce_eq fun b hb => (h.bucket_integers hb).reduce_countUnique rank,
    h.integers.reduce_countUnique rank, fun b hb => ?_, ?_⟩
  · refine Finset.card_le_card fun n hn => ?_
    rw [List.mem_toFinset] at hn ⊢
    exact h.mem_targetIntegers.mpr ⟨b, hb, hn⟩
  · rw [List.toFinset_eq_of_perm _ _ h.targetIntegers_perm]
    exact Reduction.card_flatMap_le _ _

end Divides

/-- What the buckets of an interval reduce to, and what all their rows do: counts and sums add up,
the best of all is the best of the buckets, and what is distinct among all is in some bucket. -/
theorem recombines (hnamed : ∀ row ∈ rows, Named i row)
    (hints : Reduction.IntegersOrNulls target rows) (rank : Option Binary64) :
    ∃ buckets, partition rows i = .ok buckets ∧
      (∃ counts : Bucket → Int,
        Bucket.reduce rows i .count target rank = .ok (answer i buckets fun b => .int (counts b)) ∧
        (buckets.map counts).sum = rows.length) ∧
      (∃ sums : Bucket → Int,
        Bucket.reduce rows i .sum target rank = .ok (answer i buckets fun b => .int (sums b)) ∧
        Reduction.reduce rows .sum target rank = .ok (.int (buckets.map sums).sum)) ∧
      (∃ minima v, Bucket.reduce rows i .minimum target rank = .ok (answer i buckets minima) ∧
        Reduction.reduce rows .minimum target rank = .ok v ∧
        (∀ b ∈ buckets, (minima b).IsIntegerOrNull) ∧
        Aggregate.least.Denotes (buckets.map minima) v) ∧
      (∃ maxima v, Bucket.reduce rows i .maximum target rank = .ok (answer i buckets maxima) ∧
        Reduction.reduce rows .maximum target rank = .ok v ∧
        (∀ b ∈ buckets, (maxima b).IsIntegerOrNull) ∧
        Aggregate.greatest.Denotes (buckets.map maxima) v) ∧
      (∃ (members : Bucket → List Value) (all : List Value),
        Bucket.reduce rows i .selectUnique target rank
          = .ok (answer i buckets fun b => .array (members b)) ∧
        Reduction.reduce rows .selectUnique target rank = .ok (.array all) ∧
        ∀ v, v ∈ all ↔ ∃ b ∈ buckets, v ∈ members b) ∧
      ∃ (tallies : Bucket → Nat) (tally : Nat),
        Bucket.reduce rows i .countUnique target rank
          = .ok (answer i buckets fun b => .int (tallies b)) ∧
        Reduction.reduce rows .countUnique target rank = .ok (.int tally) ∧
        (∀ b ∈ buckets, tallies b ≤ tally) ∧ tally ≤ (buckets.map tallies).sum := by
  obtain ⟨buckets, h⟩ := exists_divides hnamed hints
  refine ⟨buckets, h.partition_eq, ?counts, ⟨_, h.totals (.inr ⟨rfl, hints⟩) rank⟩, h.minima rank,
    h.maxima rank, h.members rank, h.tallies rank⟩
  obtain ⟨hbuckets, htotal⟩ := h.totals (.inl rfl) rank
  exact ⟨_, hbuckets, Value.int.inj (Except.ok.inj htotal.symm)⟩

theorem recombines_readings :
    (∀ row ∈ readings, Named .daily row) ∧
      Reduction.IntegersOrNulls (some "volts") readings ∧
      ∃ buckets, partition readings .daily = .ok buckets ∧
        (∃ counts : Bucket → Int,
          Bucket.reduce readings .daily .count (some "volts") none
              = .ok (answer .daily buckets fun b => .int (counts b)) ∧
            (buckets.map counts).sum = 3) ∧
        ∃ minima, Bucket.reduce readings .daily .minimum (some "volts") none
            = .ok (answer .daily buckets minima) ∧
          Aggregate.least.Denotes (buckets.map minima) (.int (-2)) := by
  have hnamed : ∀ row ∈ readings, Named .daily row := by
    simp only [readings, mixedTimes, List.zipWith_cons_cons, List.zipWith_nil_left,
      List.forall_mem_cons]
    exact ⟨named_of_moment rfl (by decide), named_of_moment rfl (by decide),
      named_of_moment rfl (by decide), by simp⟩
  have hints : Reduction.IntegersOrNulls (some "volts") readings := by
    rintro c ⟨⟩
    simp only [readings, mixedTimes, List.zipWith_cons_cons, List.zipWith_nil_left,
      List.forall_mem_cons]
    exact ⟨.inr ⟨5, rfl⟩, .inl rfl, .inr ⟨-2, rfl⟩, by simp⟩
  obtain ⟨buckets, hbuckets, hcounts, _, ⟨minima, v, hminima, hv, _, hleast⟩, _⟩ :=
    recombines hnamed hints none
  have hoverall : Reduction.reduce readings .minimum (some "volts") none = .ok (.int (-2)) := rfl
  rw [hoverall, Except.ok.injEq] at hv
  exact ⟨hnamed, hints, buckets, hbuckets, hcounts, minima, hminima, hv ▸ hleast⟩

/-- A time that is read, in a year that no label names. -/
def lateTime : Record := [(Name.timestampColumn, .text "9999-12-31T23:00:00-05:00")]

/-- The counts of readable times need not add up: there may be none. -/
theorem not_recombines_lateTime :
    ¬∀ (i : Interval) (rows : List Record) (target : Option String),
      (∀ row ∈ rows, ∃ start, startOf (timeOf row) i = .ok start) →
      Reduction.IntegersOrNulls target rows →
      ∃ (buckets : List Bucket) (counts : Bucket → Int),
        Bucket.reduce rows i .count target none
            = .ok (answer i buckets fun b => .int (counts b)) ∧
          (buckets.map counts).sum = rows.length := by
  intro h
  have hread : startOf (timeOf lateTime) .minutely
      = .ok (Date.endOfYears * Calendar.microsPerDay + 240 * Calendar.microsPerMinute) := by
    decide +kernel
  obtain ⟨_, _, hreduce, _⟩ := h .minutely [lateTime] none
    (by simpa using ⟨_, hread⟩) (by rintro _ ⟨⟩)
  obtain ⟨start, hstart, hyears⟩ := named_of_reduce_eq_ok hreduce lateTime (by simp)
  rw [hread, Except.ok.injEq] at hstart
  revert hyears
  rw [← hstart]
  decide

end Bucket
end EventQuery
