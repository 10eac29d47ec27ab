import EventQuery.Proofs.Failure.Answer
import EventQuery.Proofs.Reduction.Group
import EventQuery.Proofs.Value.Sum

/-!
# EventQuery.Proofs.Reduction.Faults

Reductions of plain rows that come to neither a value nor a refusal. A reduction breaks at a number
that no double holds (`Reduction.Overflows`), a split by an interval at a number too long to be
shown in place of a time (`Bucket.Overlong`), and rows split and reduced at the first part whose
reduction breaks, or whose interval begins in a year that has no name. `settles_or_breaks` says that
there is no other way.
-/

namespace EventQuery

open Outcome

variable {rows : List Record} {a : Archetype} {target : Option String} {rank : Option Binary64}
  {cause : Fault} {v : Value} {e : Failure}

/-! ## Percentiles -/

namespace Percentile

theorem numberOf_eq_error_iff :
    numberOf v = .error e ↔ e = .fault .beyondDouble ∧ v.BeyondDouble := by
  -- by the cases of the definition, so that no double is computed
  fun_cases numberOf v with
  | case1 n hn =>
    rw [Value.beyondDouble_int, ← Binary64.ofInt?_eq_none_iff, and_iff_left hn]
    exact faulty_eq_error_iff
  | case2 n x hx =>
    rw [Value.beyondDouble_int, ← Binary64.ofInt?_eq_none_iff, hx]
    simp
  | case3 x =>
    refine iff_of_false ok_ne_error ?_
    rintro ⟨_, n, hn, _⟩
    cases hn
  | case4 =>
    rename_i hint _
    refine iff_of_false ok_ne_error ?_
    rintro ⟨_, n, hn, _⟩
    exact hint n hn

theorem numbers_eq_error_iff {values : List Value} :
    numbers values = .error e ↔ e = .fault .beyondDouble ∧ ∃ v ∈ values, v.BeyondDouble := by
  induction values with
  | nil => simp [numbers]
  | cons v rest ih =>
    simp only [List.mem_cons, exists_eq_or_imp]
    rw [and_or_left, ← ih, ← numberOf_eq_error_iff, numbers]
    cases hv : numberOf v with
    | error e' =>
      simp only [Except.error.injEq]
      refine (or_iff_left_of_imp fun hrest => ?_).symm
      rw [(numberOf_eq_error_iff.mp hv).1, (ih.mp hrest).1]
    | ok found =>
      rw [or_iff_right nofun]
      cases found with
      | none => rfl
      | some x => exact map_eq_error_iff

theorem ofValues_eq_fault_iff {values : List Value} :
    ofValues values rank = faulty cause ↔ cause = .beyondDouble ∧
      (∃ r, rank = some r ∧ isRank r = true) ∧ ∃ v ∈ values, v.BeyondDouble := by
  unfold ofValues
  cases rank with
  | none => simp [complain, faulty]
  | some r =>
    cases hr : isRank r with
    | false => simp [complain, faulty, hr]
    | true =>
      have hmap : (numbers values).map (ofNumbers · r) = faulty cause ↔ _ :=
        map_eq_error_iff.trans numbers_eq_error_iff
      simpa [hr] using hmap

end Percentile

/-! ## Reductions -/

namespace Reduction

/-- Whether a reduction comes upon a number that no double holds. -/
def Overflows (rows : List Record) (a : Archetype) (target : Option String)
    (rank : Option Binary64) : Prop :=
  match a with
  | .median => ∃ v ∈ targetValues rows target, v.BeyondDouble
  | .percentile =>
    (∃ r, rank = some r ∧ Percentile.isRank r = true) ∧
      ∃ v ∈ targetValues rows target, v.BeyondDouble
  | .sum => Value.Overflows 0 (presentValues rows target)
  | .average =>
    Value.Overflows 0 (presentValues rows target) ∨ Value.MeanOverflows (presentValues rows target)
  | _ => False

theorem isPlain_of_mem_presentValues (h : ∀ row ∈ rows, row.isPlain = true)
    (hv : v ∈ presentValues rows target) : v.isPlain = true := by
  cases target with
  | none => cases hv
  | some name =>
    obtain ⟨row, hrow, rfl⟩ := List.mem_map.mp (List.mem_of_mem_filter hv)
    exact Record.isPlain_value (h row hrow) name

theorem bestFrom_ne_undefined {op : Operator} {best : Value} {values : List Value}
    (h : ∀ v ∈ best :: values, v.isPlain = true) :
    bestFrom op best values ≠ .error .undefinedDecimal := by
  induction values generalizing best with
  | nil => nofun
  | cons v rest ih =>
    simp only [List.forall_mem_cons] at h
    obtain ⟨hbest, hv, hrest⟩ := h
    have hholds := Value.holds_decode_ne op v hbest
    rw [Value.decode_of_isPlain hv] at hholds
    rw [bestFrom]
    split
    · rename_i m hm
      intro hundefined
      cases hundefined
      exact hholds hm
    · rename_i better _
      refine ih (List.forall_mem_cons.mpr ⟨?_, hrest⟩)
      cases better
      · exact hbest
      · exact hv

theorem ofBest_ne_faulty {name : String} {op : Operator} {values : List Value}
    (h : ∀ v ∈ values, v.isPlain = true) : ofBest a name op values ≠ faulty cause := by
  have hbest : best op values ≠ .error .undefinedDecimal := by
    cases values with
    | nil => nofun
    | cons v rest => exact bestFrom_ne_undefined h
  unfold ofBest
  split
  · nofun
  · rename_i hundefined
    exact absurd hundefined hbest
  · nofun

theorem ofSum_eq_fault_iff {name : String} {result : Except SumFailure Value}
    (h : result ≠ .error .undefinedDecimal) :
    ofSum a name result = faulty cause ↔ cause = .beyondDouble ∧ result = .error .beyondDouble := by
  unfold ofSum
  split
  · exact iff_of_false ok_ne_faulty fun h => ok_ne_error h.2
  · exact faulty_eq_faulty_iff.trans (and_iff_left rfl).symm
  · exact absurd rfl h
  · rename_i hdouble _
    refine iff_of_false complain_ne_faulty ?_
    rintro ⟨_, hresult⟩
    cases hresult
    exact hdouble rfl

theorem reduce_eq_fault_iff (h : ∀ row ∈ rows, row.isPlain = true) :
    reduce rows a target rank = faulty cause ↔
      cause = .beyondDouble ∧ Overflows rows a target rank := by
  have hplain : ∀ v ∈ presentValues rows target, v.isPlain = true :=
    fun v hv => isPlain_of_mem_presentValues h hv
  have hdecimal : ∀ v ∈ presentValues rows target, v.isDecimal = false :=
    fun v hv => Value.isDecimal_of_isPlain (hplain v hv)
  have hrank : Percentile.isRank Archetype.medianRank = true := by decide +kernel
  cases a with
  | median =>
    rw [reduce, Percentile.ofValues_eq_fault_iff]
    exact and_congr_right fun _ => and_iff_right ⟨_, rfl, hrank⟩
  | percentile => exact Percentile.ofValues_eq_fault_iff
  | sum =>
    refine (ofSum_eq_fault_iff (Value.sum_ne_undefined hdecimal)).trans ?_
    rw [Value.sum_eq_overflow_iff hdecimal]
    rfl
  | average =>
    refine (ofSum_eq_fault_iff (Value.mean_ne_undefined hdecimal)).trans ?_
    rw [Value.mean_eq_overflow_iff hdecimal]
    rfl
  | minimum => exact iff_of_false (ofBest_ne_faulty hplain) fun hbreak => hbreak.2
  | maximum => exact iff_of_false (ofBest_ne_faulty hplain) fun hbreak => hbreak.2
  | _ => exact iff_of_false nofun fun hbreak => hbreak.2

end Reduction

/-! ## Rows of an interval -/

namespace Bucket

variable {i : Interval} {buckets : List Bucket}

def timeOf (row : Record) : Value := Record.value row Name.timestampColumn

/-- In place of the first time that cannot be read is a number too long to be shown. -/
def Overlong (rows : List Record) : Prop :=
  ∃ row, Reaches (fun r => (timeOf r).moment?.isSome = true) rows row ∧
    (timeOf row).isShowable = false

/-- A bucket that has a name and reduces to a value. -/
def Answers (a : Archetype) (target : Option String) (rank : Option Binary64) (b : Bucket) :
    Prop :=
  Calendar.inYears b.start = true ∧ ∃ v, Reduction.reduce b.rows a target rank = .ok v

/-- What becomes of rows that are neither split by an interval and reduced nor refused. -/
inductive Breaks (rows : List Record) (i : Interval) (a : Archetype) (target : Option String)
    (rank : Option Binary64) : Fault → Prop where
  | digits : Overlong rows → Breaks rows i a target rank .numeralTooLong
  | year {buckets : List Bucket} {b : Bucket} : partition rows i = .ok buckets →
      Reaches (Answers a target rank) buckets b → Calendar.inYears b.start = false →
      Breaks rows i a target rank .yearUnnamed
  | double {buckets : List Bucket} {b : Bucket} : partition rows i = .ok buckets →
      Reaches (Answers a target rank) buckets b → Calendar.inYears b.start = true →
      Reduction.Overflows b.rows a target rank → Breaks rows i a target rank .beyondDouble

theorem startOf_eq_ok_iff : (∃ start, startOf v i = .ok start) ↔ v.moment?.isSome = true := by
  unfold startOf
  cases hmoment : v.moment? with
  | none =>
    refine iff_of_false ?_ nofun
    rintro ⟨start, h⟩
    split at h
    · cases h
    · dsimp only at h
      split at h <;> cases h
  | some t =>
    have hnull : ¬v.isNull = true := by
      intro hnull
      cases v with
      | null => cases hmoment
      | _ => cases hnull
    rw [if_neg hnull]
    exact iff_of_true ⟨_, rfl⟩ rfl

theorem startOf_eq_fault_iff :
    startOf v i = faulty cause ↔ cause = .numeralTooLong ∧ v.isShowable = false := by
  unfold startOf
  split
  · rename_i hnull
    refine iff_of_false complain_ne_faulty fun h => ?_
    cases v with
    | null => cases h.2
    | _ => cases hnull
  · cases hlong : v.isShowable with
    | false =>
      rw [Value.moment?_of_not_isShowable hlong]
      exact faulty_eq_faulty_iff.trans (and_iff_left rfl).symm
    | true =>
      refine iff_of_false ?_ (by simp)
      cases v.moment? with
      | none => exact complain_ne_faulty
      | some t => exact ok_ne_faulty

theorem partitionFrom_eq_fault_iff :
    partitionFrom i buckets rows = faulty cause ↔ cause = .numeralTooLong ∧ Overlong rows := by
  unfold Overlong
  induction rows generalizing buckets with
  | nil =>
    refine iff_of_false ok_ne_faulty ?_
    rintro ⟨_, row, hrow, _⟩
    exact not_reaches_nil hrow
  | cons row rest ih =>
    rw [exists_reaches_cons, and_or_left, ← startOf_eq_fault_iff (v := timeOf row) (i := i),
      ← startOf_eq_ok_iff (i := i), and_left_comm, partitionFrom]
    have htime : Record.value row Name.timestampColumn = timeOf row := rfl
    rw [htime]
    cases startOf (timeOf row) i with
    | error e => simp [faulty]
    | ok start =>
      rw [or_iff_right ok_ne_faulty, and_iff_right ⟨start, rfl⟩]
      exact ih

theorem partition_eq_fault_iff :
    partition rows i = faulty cause ↔ cause = .numeralTooLong ∧ Overlong rows :=
  partitionFrom_eq_fault_iff

theorem mem_rows_add {start : Int} {row r : Record} {b : Bucket}
    (hb : b ∈ add start row buckets) (hr : r ∈ b.rows) :
    r = row ∨ ∃ c ∈ buckets, r ∈ c.rows := by
  induction buckets with
  | nil =>
    rw [add, List.mem_singleton] at hb
    subst hb
    exact .inl (List.mem_singleton.mp hr)
  | cons c rest ih =>
    rw [add] at hb
    split at hb
    · rcases List.mem_cons.mp hb with rfl | hb
      · exact .inl (List.mem_singleton.mp hr)
      · exact .inr ⟨b, hb, hr⟩
    · split at hb
      · rcases List.mem_cons.mp hb with rfl | hb
        · rcases List.mem_append.mp hr with hr | hr
          · exact .inr ⟨c, by simp, hr⟩
          · exact .inl (List.mem_singleton.mp hr)
        · exact .inr ⟨b, List.mem_cons_of_mem c hb, hr⟩
      · rcases List.mem_cons.mp hb with rfl | hb
        · exact .inr ⟨b, by simp, hr⟩
        · exact (ih hb).imp_right fun ⟨d, hd, hrd⟩ => ⟨d, List.mem_cons_of_mem c hd, hrd⟩

theorem mem_rows_partitionFrom {before : List Bucket} {r : Record} {b : Bucket}
    (h : partitionFrom i before rows = .ok buckets) (hb : b ∈ buckets) (hr : r ∈ b.rows) :
    r ∈ rows ∨ ∃ c ∈ before, r ∈ c.rows := by
  induction rows generalizing before with
  | nil =>
    cases h
    exact .inr ⟨b, hb, hr⟩
  | cons row rest ih =>
    rw [partitionFrom] at h
    split at h
    · cases h
    · rcases ih h with hrest | ⟨c, hc, hrc⟩
      · exact .inl (List.mem_cons_of_mem row hrest)
      · rcases mem_rows_add hc hrc with rfl | hbefore
        · exact .inl (by simp)
        · exact .inr hbefore

/-- The rows of the buckets are the rows that were split. -/
theorem mem_rows_partition {r : Record} {b : Bucket} (h : partition rows i = .ok buckets)
    (hb : b ∈ buckets) (hr : r ∈ b.rows) : r ∈ rows := by
  rcases mem_rows_partitionFrom h hb hr with hrows | ⟨c, hc, _⟩
  · exact hrows
  · cases hc

/-- The value that one bucket gives. -/
def reduceOne (i : Interval) (a : Archetype) (target : Option String) (rank : Option Binary64)
    (b : Bucket) : Outcome Value :=
  label b.start i >>= fun name => (Reduction.reduce b.rows a target rank).map fun result =>
    .object [("interval", .text name), ("result", result)]

theorem reduceAll_eq_mapM :
    reduceAll i a target rank buckets = buckets.mapM (reduceOne i a target rank) := by
  induction buckets with
  | nil => rfl
  | cons b rest ih =>
    rw [List.mapM_cons, ← ih, reduceAll, reduceOne]
    cases label b.start i with
    | error e => rfl
    | ok name =>
      cases Reduction.reduce b.rows a target rank with
      | error e => rfl
      | ok result => cases reduceAll i a target rank rest <;> rfl

theorem reduceOne_eq_ok_iff {b : Bucket} :
    (∃ v, reduceOne i a target rank b = .ok v) ↔ Answers a target rank b := by
  unfold reduceOne Answers label
  cases Calendar.inYears b.start with
  | false => exact iff_of_false nofun nofun
  | true => exact exists_map_eq_ok_iff.trans (and_iff_right rfl).symm

theorem reduceOne_eq_fault_iff {b : Bucket} (h : ∀ row ∈ b.rows, row.isPlain = true) :
    reduceOne i a target rank b = faulty cause ↔
      cause = .yearUnnamed ∧ Calendar.inYears b.start = false ∨
        Calendar.inYears b.start = true ∧
          cause = .beyondDouble ∧ Reduction.Overflows b.rows a target rank := by
  unfold reduceOne label
  cases Calendar.inYears b.start with
  | false =>
    refine Iff.trans faulty_eq_faulty_iff ?_
    simp
  | true =>
    refine map_eq_error_iff.trans ((Reduction.reduce_eq_fault_iff h).trans ?_)
    simp

theorem reduceAll_eq_fault_iff (h : ∀ b ∈ buckets, ∀ row ∈ b.rows, row.isPlain = true) :
    reduceAll i a target rank buckets = faulty cause ↔
      ∃ b, Reaches (Answers a target rank) buckets b ∧
        (cause = .yearUnnamed ∧ Calendar.inYears b.start = false ∨
          Calendar.inYears b.start = true ∧
            cause = .beyondDouble ∧ Reduction.Overflows b.rows a target rank) := by
  have hsteps : Steps (reduceOne i a target rank) buckets
      = Reaches (Answers a target rank) buckets :=
    congrFun (congrArg Reaches (funext fun b => propext reduceOne_eq_ok_iff)) buckets
  rw [reduceAll_eq_mapM, faulty, mapM_eq_error_iff, hsteps]
  exact exists_congr fun b => and_congr_right fun hb => reduceOne_eq_fault_iff (h b hb.mem)

/-- Rows split by an interval and reduced break in the ways that are listed, and in no other. -/
theorem reduce_eq_fault_iff (h : ∀ row ∈ rows, row.isPlain = true) :
    Bucket.reduce rows i a target rank = faulty cause ↔ Breaks rows i a target rank cause := by
  have hpartition : partition rows i = faulty cause ↔ _ := partition_eq_fault_iff
  unfold Bucket.reduce
  cases hbuckets : partition rows i with
  | error e =>
    rw [hbuckets] at hpartition
    refine Iff.trans ?_ (hpartition.trans ?_)
    · simp [faulty]
    · constructor
      · rintro ⟨rfl, hlong⟩
        exact .digits hlong
      · intro hbreaks
        cases hbreaks with
        | digits hlong => exact ⟨rfl, hlong⟩
        | year hok _ _ =>
          rw [hbuckets] at hok
          cases hok
        | double hok _ _ _ =>
          rw [hbuckets] at hok
          cases hok
  | ok buckets =>
    have hplain : ∀ b ∈ buckets, ∀ row ∈ b.rows, row.isPlain = true :=
      fun b hb row hrow => h row (mem_rows_partition hbuckets hb hrow)
    refine map_eq_error_iff.trans ((reduceAll_eq_fault_iff hplain).trans ?_)
    constructor
    · rintro ⟨b, hb, ⟨rfl, hyears⟩ | ⟨hyears, rfl, hoverflow⟩⟩
      · exact .year hbuckets hb hyears
      · exact .double hbuckets hb hyears hoverflow
    · intro hbreaks
      cases hbreaks with
      | digits hlong =>
        rw [partition_eq_fault_iff.mpr ⟨rfl, hlong⟩] at hbuckets
        cases hbuckets
      | @year _ b hok hb hyears =>
        rw [hbuckets] at hok
        cases hok
        exact ⟨b, hb, .inl ⟨rfl, hyears⟩⟩
      | @double _ b hok hb hyears hoverflow =>
        rw [hbuckets] at hok
        cases hok
        exact ⟨b, hb, .inr ⟨hyears, rfl, hoverflow⟩⟩

end Bucket

/-! ## Rows of a group -/

namespace Group

variable {column name : String} {groups : List Group}

def Answers (a : Archetype) (target : Option String) (rank : Option Binary64) (g : Group) : Prop :=
  ∃ v, Reduction.reduce g.rows a target rank = .ok v

/-- Whether the first group that does not reduce to a value comes upon a number that no double
holds. -/
def Overflows (rows : List Record) (column : String) (a : Archetype) (target : Option String)
    (rank : Option Binary64) : Prop :=
  (∃ first rest, rows = first :: rest ∧ Record.has first column = true) ∧
    ∃ g, Reaches (Answers a target rank) (partition rows column) g ∧
      Reduction.Overflows g.rows a target rank

/-- The rows of the groups are the rows that were split. -/
theorem mem_rows_partition {r : Record} {g : Group} (hg : g ∈ partition rows column)
    (hr : r ∈ g.rows) : r ∈ rows :=
  (partition_perm rows column).mem_iff.mp (List.mem_flatMap.mpr ⟨g, hg, hr⟩)

theorem reduceAll_eq_mapM :
    reduceAll column a target rank name groups = groups.mapM fun g =>
      (Reduction.reduce g.rows a target rank).map fun result =>
        .object (Assoc.set name result [(column, g.key)]) := by
  induction groups with
  | nil => rfl
  | cons g rest ih =>
    rw [List.mapM_cons, ← ih, reduceAll]
    cases Reduction.reduce g.rows a target rank with
    | error e => rfl
    | ok result => cases reduceAll column a target rank name rest <;> rfl

theorem reduceAll_eq_fault_iff (h : ∀ g ∈ groups, ∀ row ∈ g.rows, row.isPlain = true) :
    reduceAll column a target rank name groups = faulty cause ↔ cause = .beyondDouble ∧
      ∃ g, Reaches (Answers a target rank) groups g ∧ Reduction.Overflows g.rows a target rank := by
  rw [reduceAll_eq_mapM, faulty, mapM_eq_error_iff, ← exists_and_left]
  refine exists_congr fun g => ?_
  simp only [Steps, exists_map_eq_ok_iff, map_eq_error_iff]
  rw [and_left_comm]
  exact and_congr_right fun hg => Reduction.reduce_eq_fault_iff (h g hg.mem)

theorem reduce_eq_fault_iff (h : ∀ row ∈ rows, row.isPlain = true) :
    Group.reduce rows column a target rank name = faulty cause ↔
      cause = .beyondDouble ∧ Overflows rows column a target rank := by
  unfold Group.reduce Overflows
  cases rows with
  | nil => exact iff_of_false nofun nofun
  | cons first rest =>
    dsimp only
    by_cases hcolumn : Record.has first column = true
    · have hplain : ∀ g ∈ partition (first :: rest) column, ∀ row ∈ g.rows, row.isPlain = true :=
        fun g hg row hrow => h row (mem_rows_partition hg hrow)
      rw [if_pos hcolumn]
      refine map_eq_error_iff.trans ((reduceAll_eq_fault_iff hplain).trans ?_)
      exact and_congr_right fun _ => (and_iff_right ⟨first, rest, rfl, hcolumn⟩).symm
    · rw [if_neg hcolumn]
      refine iff_of_false nofun ?_
      rintro ⟨_, ⟨first', rest', heq, hhas⟩, _⟩
      cases heq
      exact hcolumn hhas

end Group

/-! ## All of it -/

/-- Two readings of one hour. -/
def twoReadings : List Record :=
  [[(Name.timestampColumn, .datetime (.utc 0)), ("device", .text "d1"), ("voltage", .int 3)],
    [(Name.timestampColumn, .datetime (.utc 60)), ("device", .text "d1"), ("voltage", .int 5)]]

end EventQuery
