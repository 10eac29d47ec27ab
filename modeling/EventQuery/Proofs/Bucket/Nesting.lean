import EventQuery.Proofs.Bucket.Labels
import EventQuery.Proofs.Reduction.Integer
import Mathlib.Algebra.BigOperators.Group.List.Basic

/-!
# EventQuery.Proofs.Bucket.Nesting

Buckets of an interval inside the buckets of a coarser one. The bucket of a time in the coarser
interval is that of its bucket in the finer one (`startOf_coarse`), so every fine bucket is inside
one coarse bucket (`existsUnique_around`), and the rows of a coarse bucket are those of the fine
buckets inside it (`rows_perm_inside`). Counts, and sums of integers, add up a weight of each row
(`reduce_additive`), and so those of a coarse bucket are the sums of those inside it (`nests`).
-/

namespace EventQuery

/-! ## Aggregates that add up -/

namespace Reduction

variable {rows : List Record} {a : Archetype} {target : Option String} {rank : Option Binary64}

/-- A count, or the sum of a column of integers and nulls. -/
def Additive (a : Archetype) (target : Option String) (rows : List Record) : Prop :=
  a = .count ∨ a = .sum ∧ ∀ c ∈ target, ∀ row ∈ rows, (Record.value row c).IsIntegerOrNull

/-- What a row adds to a count or a sum. -/
def weight (a : Archetype) (target : Option String) (row : Record) : Int :=
  match a with
  | .sum => (target.bind fun c => (Record.value row c).integer?).getD 0
  | _ => 1

theorem sum_integers (c : String) (rows : List Record) :
    (integers rows c).sum = (rows.map (weight .sum (some c))).sum := by
  induction rows with
  | nil => rfl
  | cons row rest ih =>
    have hcons : integers (row :: rest) c
        = ((Record.value row c).integer?).toList ++ integers rest c := by
      unfold integers
      rw [List.map_cons, List.filterMap_cons]
      cases (Record.value row c).integer? <;> rfl
    have hweight : weight .sum (some c) row = ((Record.value row c).integer?).getD 0 := rfl
    rw [hcons, List.sum_append, ih, List.map_cons, List.sum_cons, hweight]
    cases (Record.value row c).integer? <;> simp

theorem reduce_additive (h : Additive a target rows) :
    reduce rows a target rank = .ok (.int (rows.map (weight a target)).sum) := by
  rcases h with rfl | ⟨rfl, hints⟩
  · have hones : (rows.map (weight .count target)).sum = rows.length := by
      change (rows.map fun _ => (1 : Int)).sum = rows.length
      simp
    rw [hones]
    rfl
  · cases target with
    | none =>
      have hzero : (rows.map (weight .sum none)).sum = 0 := by
        change (rows.map fun _ => (0 : Int)).sum = 0
        simp
      rw [hzero]
      rfl
    | some c =>
      have hsum := sumFrom_ints 0 (integers rows c)
      rw [Int.zero_add, sum_integers] at hsum
      simp only [reduce, presentValues_ints (hints c rfl), Value.sum, hsum, ofSum]

theorem Additive.subset {part : List Record} (h : Additive a target rows)
    (hpart : ∀ row ∈ part, row ∈ rows) : Additive a target part := by
  rcases h with rfl | ⟨rfl, hints⟩
  · exact .inl rfl
  · exact .inr ⟨rfl, fun c hc row hrow => hints c hc row (hpart row hrow)⟩

end Reduction

namespace Bucket

variable {fine coarse : Interval} {rows : List Record} {starts starts' : List Int} {v : Value}

/-! ## Fine buckets inside coarse ones -/

/-- The bucket of a time is found from its bucket in a finer interval. -/
theorem startOf_coarse (h : fine.Refines coarse) {start : Int} (hv : startOf v fine = .ok start) :
    startOf v coarse = .ok (coarse.floor start) := by
  obtain ⟨t, ht, rfl⟩ := startOf_eq_floor_iff.mp hv
  rw [startOf_of_moment coarse ht, Interval.floor_floor h]

/-- The buckets that begin in a bucket of another interval. -/
def inside (coarse : Interval) (fines : List Bucket) (c : Bucket) : List Bucket :=
  fines.filter fun f => startOf (.datetime ⟨f.start, none⟩) coarse = .ok c.start

theorem mem_inside {fines : List Bucket} {c f : Bucket} :
    f ∈ inside coarse fines c ↔ f ∈ fines ∧ coarse.floor f.start = c.start := by
  rw [inside, List.mem_filter, startOf_wall, decide_eq_true_eq, Except.ok.injEq]

theorem inside_bucketsAt (c : Bucket) : inside coarse (bucketsAt fine rows starts) c
    = bucketsAt fine rows (starts.filter fun start => coarse.floor start = c.start) := by
  rw [inside, bucketsAt, List.filter_map, bucketsAt]
  congr 1
  refine List.filter_congr fun start _ => ?_
  simp only [Function.comp_apply, startOf_wall, Except.ok.injEq]

theorem existsUnique_around (h : fine.Refines coarse) (hfine : Starts fine rows starts)
    (hcoarse : Starts coarse rows starts') {f : Bucket} (hf : f ∈ bucketsAt fine rows starts) :
    ∃! c, c ∈ bucketsAt coarse rows starts' ∧ f ∈ inside coarse (bucketsAt fine rows starts) c := by
  obtain ⟨row, hrow, hgoes⟩ := (hfine.mem_iff _).mp (mem_bucketsAt.mp hf).1
  have hstart : coarse.floor f.start ∈ starts' :=
    (hcoarse.mem_iff _).mpr ⟨row, hrow, startOf_coarse h hgoes⟩
  refine ⟨⟨coarse.floor f.start, rowsAt coarse rows (coarse.floor f.start)⟩,
    ⟨mem_bucketsAt.mpr ⟨hstart, rfl⟩, mem_inside.mpr ⟨hf, rfl⟩⟩, ?_⟩
  rintro ⟨start, content⟩ ⟨hc, hinside⟩
  obtain rfl : coarse.floor f.start = start := (mem_inside.mp hinside).2
  obtain rfl : content = rowsAt coarse rows (coarse.floor f.start) := (mem_bucketsAt.mp hc).2
  rfl

theorem rows_perm_inside (h : fine.Refines coarse) (hfine : Starts fine rows starts)
    (hrows : ∀ row ∈ rows, ∃ start, startOf (timeOf row) fine = .ok start) {c : Bucket}
    (hc : c ∈ bucketsAt coarse rows starts') :
    c.rows.Perm ((inside coarse (bucketsAt fine rows starts) c).flatMap Bucket.rows) := by
  rw [inside_bucketsAt, (mem_bucketsAt.mp hc).2]
  have hsame : bucketsAt fine rows (starts.filter fun start => coarse.floor start = c.start)
      = bucketsAt fine (rowsAt coarse rows c.start)
          (starts.filter fun start => coarse.floor start = c.start) := by
    refine List.map_congr_left fun start hstart => ?_
    have hfloor : coarse.floor start = c.start := by simpa using (List.mem_filter.mp hstart).2
    rw [rowsAt, rowsAt, rowsAt, List.filter_filter]
    congr 1
    refine List.filter_congr fun row _ => ?_
    by_cases hgoes : startOf (timeOf row) fine = .ok start
    · simp [hgoes, startOf_coarse h hgoes, hfloor]
    · simp [hgoes]
  rw [hsame]
  refine (bucketsAt_perm (hfine.ascending.filter _) fun row hrow => ?_).symm
  obtain ⟨hmem, hgoes⟩ := mem_rowsAt.mp hrow
  obtain ⟨start, hstart⟩ := hrows row hmem
  have hfloor : coarse.floor start = c.start := by
    rw [startOf_coarse h hstart] at hgoes
    exact Except.ok.inj hgoes
  refine ⟨start, List.mem_filter.mpr ⟨(hfine.mem_iff start).mpr ⟨row, hmem, hstart⟩, ?_⟩, hstart⟩
  simpa using hfloor

/-! ## Counts and sums of buckets -/

/-- What the rows of a bucket add up to. -/
def total (a : Archetype) (target : Option String) (b : Bucket) : Int :=
  (b.rows.map (Reduction.weight a target)).sum

variable {a : Archetype} {target : Option String} {rank : Option Binary64}

theorem total_eq_sum {b : Bucket} {parts : List Bucket}
    (h : b.rows.Perm (parts.flatMap Bucket.rows)) :
    total a target b = (parts.map (total a target)).sum := by
  rw [total, (h.map _).sum_eq, List.map_flatMap, List.flatMap_def, List.sum_flatten, List.map_map]
  rfl

theorem reduce_bucketsAt {i : Interval} (h : Reduction.Additive a target rows) {b : Bucket}
    (hb : b ∈ bucketsAt i rows starts) :
    Reduction.reduce b.rows a target rank = .ok (.int (total a target b)) := by
  refine Reduction.reduce_additive (h.subset fun row hrow => ?_)
  rw [(mem_bucketsAt.mp hb).2] at hrow
  exact (mem_rowsAt.mp hrow).1

theorem reduce_eq_totals {i : Interval} (h : Reduction.Additive a target rows)
    (hstarts : Starts i rows starts) (hpartition : partition rows i = .ok (bucketsAt i rows starts))
    (hyears : ∀ row ∈ rows, ∃ t, (timeOf row).moment? = some t ∧
      Calendar.inYears t.instant = true) :
    Bucket.reduce rows i a target rank
      = .ok (.array ((bucketsAt i rows starts).map fun b =>
          entry i b (.int (total a target b)))) := by
  refine reduce_eq_ok_iff.mpr ⟨_, _, hpartition, rfl, fun b hb => ?_, ?_⟩
  · obtain ⟨row, hrow, hgoes⟩ := (hstarts.mem_iff _).mp (mem_bucketsAt.mp hb).1
    obtain ⟨t, ht, hyear⟩ := hyears row hrow
    rw [startOf_of_moment i ht] at hgoes
    rw [← Except.ok.inj hgoes]
    exact i.inYears_floor hyear
  · rw [List.forall₂_map_right_iff, List.forall₂_same]
    exact fun b hb => ⟨_, reduce_bucketsAt h hb, rfl⟩

/-- Fine buckets are inside coarse ones, and what is added up in a coarse one is the sum of what is
added up in those inside it. -/
theorem nests (h : fine.Refines coarse) :
    (∀ v t, v.moment? = some t → ∃ start start', startOf v fine = .ok start ∧
        startOf (.datetime ⟨start, none⟩) coarse = .ok start' ∧ startOf v coarse = .ok start') ∧
      ∀ rows, (∀ row ∈ rows, (timeOf row).moment?.isSome = true) →
        ∃ fines coarses, partition rows fine = .ok fines ∧ partition rows coarse = .ok coarses ∧
          (∀ f ∈ fines, ∃! c, c ∈ coarses ∧ f ∈ inside coarse fines c) ∧
          (∀ c ∈ coarses, c.rows.Perm ((inside coarse fines c).flatMap Bucket.rows)) ∧
          ∀ a target rank, Reduction.Additive a target rows → ∃ result : Bucket → Int,
            (∀ b, b ∈ fines ∨ b ∈ coarses →
              Reduction.reduce b.rows a target rank = .ok (.int (result b))) ∧
            (∀ c ∈ coarses, result c = ((inside coarse fines c).map result).sum) ∧
            ((∀ row ∈ rows, ∃ t, (timeOf row).moment? = some t ∧
                Calendar.inYears t.instant = true) →
              Bucket.reduce rows fine a target rank
                  = .ok (.array (fines.map fun f => entry fine f (.int (result f)))) ∧
                Bucket.reduce rows coarse a target rank
                  = .ok (.array (coarses.map fun c => entry coarse c (.int (result c))))) := by
  constructor
  · intro v t ht
    refine ⟨_, _, startOf_of_moment fine ht, startOf_wall coarse _, ?_⟩
    exact startOf_coarse h (startOf_of_moment fine ht)
  · intro rows hdated
    have hrows (i : Interval) : ∀ row ∈ rows, ∃ start, startOf (timeOf row) i = .ok start :=
      fun row hrow => startOf_eq_ok_iff.mpr (hdated row hrow)
    obtain ⟨starts, hfine, hfines⟩ := partition_eq_bucketsAt (hrows fine)
    obtain ⟨starts', hcoarse, hcoarses⟩ := partition_eq_bucketsAt (hrows coarse)
    have hperm : ∀ c ∈ bucketsAt coarse rows starts',
        c.rows.Perm ((inside coarse (bucketsAt fine rows starts) c).flatMap Bucket.rows) :=
      fun c hc => rows_perm_inside h hfine (hrows fine) hc
    refine ⟨_, _, hfines, hcoarses, fun f hf => existsUnique_around h hfine hcoarse hf, hperm, ?_⟩
    intro a target rank hadditive
    refine ⟨total a target, ?_, fun c hc => total_eq_sum (hperm c hc), fun hyears => ⟨?_, ?_⟩⟩
    · rintro b (hb | hb)
      · exact reduce_bucketsAt hadditive hb
      · exact reduce_bucketsAt hadditive hb
    · exact reduce_eq_totals hadditive hfine hfines hyears
    · exact reduce_eq_totals hadditive hcoarse hcoarses hyears

/-- Times of two days, with integers and a null. -/
def readings : List Record :=
  mixedTimes.zipWith (fun row volts => row ++ [("volts", volts)]) [.int 5, .null, .int (-2)]

theorem nests_readings :
    (∃ start start', startOf (.int 1773483330000) .minutely = .ok start ∧
        startOf (.datetime ⟨start, none⟩) .daily = .ok start' ∧
        startOf (.int 1773483330000) .daily = .ok start') ∧
      ∃ fines coarses, partition readings .minutely = .ok fines ∧
        partition readings .daily = .ok coarses ∧
        (∀ f ∈ fines, ∃! c, c ∈ coarses ∧ f ∈ inside .daily fines c) ∧
        (∀ c ∈ coarses, c.rows.Perm ((inside .daily fines c).flatMap Bucket.rows)) ∧
        ∃ result : Bucket → Int,
          (∀ c ∈ coarses, result c = ((inside .daily fines c).map result).sum) ∧
          Bucket.reduce readings .minutely .sum (some "volts") none
            = .ok (.array (fines.map fun f => entry .minutely f (.int (result f)))) ∧
          Bucket.reduce readings .daily .sum (some "volts") none
            = .ok (.array (coarses.map fun c => entry .daily c (.int (result c)))) := by
  have hdated : ∀ row ∈ readings, ∃ t, (timeOf row).moment? = some t ∧
      Calendar.inYears t.instant = true := by
    simp only [readings, mixedTimes, List.zipWith_cons_cons, List.zipWith_nil_left,
      List.forall_mem_cons]
    exact ⟨⟨_, rfl, by decide⟩, ⟨_, rfl, by decide⟩, ⟨_, rfl, by decide⟩, by simp⟩
  have hints : Reduction.Additive .sum (some "volts") readings := by
    refine .inr ⟨rfl, fun c hc row hrow => ?_⟩
    cases hc
    simp only [readings, mixedTimes, List.zipWith_cons_cons, List.zipWith_nil_left,
      List.mem_cons, List.not_mem_nil, or_false] at hrow
    rcases hrow with rfl | rfl | rfl
    · exact .inr ⟨5, rfl⟩
    · exact .inl rfl
    · exact .inr ⟨-2, rfl⟩
  obtain ⟨hstarts, hnests⟩ := nests (Interval.Refines.hours.trans .days)
  obtain ⟨fines, coarses, hfines, hcoarses, hunique, hperm, hresults⟩ := hnests readings
    fun row hrow => by
      obtain ⟨t, ht, _⟩ := hdated row hrow
      rw [ht]
      rfl
  obtain ⟨result, _, hsums, houtputs⟩ := hresults .sum (some "volts") none hints
  exact ⟨hstarts _ _ rfl, fines, coarses, hfines, hcoarses, hunique, hperm, result, hsums,
    houtputs hdated⟩

end Bucket
end EventQuery
