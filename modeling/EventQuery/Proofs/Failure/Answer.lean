import EventQuery.Engine
import EventQuery.History
import EventQuery.Listing
import EventQuery.Proofs.Failure.Statement

/-!
# EventQuery.Proofs.Failure.Answer

What can go wrong once there are rows or a document: rows of the wrong form, values without an
order or a sum, years that have no name, numbers that no double holds. `failsAmong_ofRows` is about
the answer of a request, `Rollup.failsAmong_view` about a view and `Listing.failsAmong_ofRows` about
a listing. Nothing here turns a caller away.
-/

namespace EventQuery

open Outcome

/-! ## Columns -/

namespace Engine

theorem failsAmong_kindOf (v : Value) : FailsAmong [.notText] (kindOf v) := by
  unfold kindOf
  split
  · exact failsAmong_ok _
  · split
    · exact failsAmong_ok _
    · exact failsAmong_faulty (by simp)

theorem failsAmong_columnOf (row : Record) :
    FailsAmong [.missingField, .notText, .notKey] (columnOf row) := by
  unfold columnOf
  split
  · exact failsAmong_faulty (by simp)
  · split
    · exact (failsAmong_kindOf _).error (by simp) ‹_›
    · split
      · exact failsAmong_ok _
      · exact failsAmong_faulty (by simp)

theorem failsAmong_columnsOf (rows : List Record) :
    FailsAmong [.missingField, .notText, .notKey] (columnsOf rows) := by
  induction rows with
  | nil => exact failsAmong_ok _
  | cons row rest ih =>
    unfold columnsOf
    split
    · exact (failsAmong_columnOf row).error (by simp) ‹_›
    · exact ih.map

end Engine

/-! ## Filters applied to rows -/

namespace Filter

theorem failsAmong_align (left right : Value) :
    FailsAmong [.yearOutOfRange] (align left right) := by
  unfold align
  split
  · unfold alignTimes
    split
    · exact left.failsAmong_utc?.error (by simp) ‹_›
    · exact right.failsAmong_utc?.error (by simp) ‹_›
    · exact failsAmong_ok _
    · exact failsAmong_ok _
  · split <;> exact failsAmong_ok _

theorem failsAmong_compares (op : Operator) (left right : Value) :
    FailsAmong [.yearOutOfRange, .undefinedDecimal] (compares op left right) := by
  unfold compares
  split
  · exact (failsAmong_align left right).error (by simp) ‹_›
  · split
    · exact failsAmong_ok _
    · exact failsAmong_faulty (by simp)
    · exact failsAmong_ok _

theorem failsAmong_select (f : Filter) (rows : List Record) :
    FailsAmong [.yearOutOfRange, .undefinedDecimal] (select f rows) := by
  have haccepts (row : Record) :
      FailsAmong [.yearOutOfRange, .undefinedDecimal] (accepts f row) := by
    unfold accepts
    split
    · exact failsAmong_ok _
    · exact failsAmong_compares _ _ _
  induction rows with
  | nil => exact failsAmong_ok _
  | cons row rest ih =>
    unfold select
    split
    · exact (haccepts row).error (by simp) ‹_›
    · split
      · exact ih.error (by simp) ‹_›
      · exact failsAmong_ok _

theorem failsAmong_selectAll (filters : List Filter) (rows : List Record) :
    FailsAmong [.yearOutOfRange, .undefinedDecimal] (selectAll filters rows) := by
  induction filters generalizing rows with
  | nil => exact failsAmong_ok _
  | cons f rest ih =>
    unfold selectAll
    split
    · exact (failsAmong_select f rows).error (by simp) ‹_›
    · exact ih _

end Filter

/-! ## Reductions -/

theorem Percentile.failsAmong_numberOf (v : Value) :
    FailsAmong [.beyondDouble] (numberOf v) := by
  -- by the cases of the definition, so that no double is computed
  fun_cases numberOf v with
  | case1 => exact failsAmong_faulty (by simp)
  | case2 | case3 | case4 => exact failsAmong_ok _

theorem Percentile.failsAmong_numbers (values : List Value) :
    FailsAmong [.beyondDouble] (numbers values) := by
  induction values with
  | nil => exact failsAmong_ok _
  | cons v rest ih =>
    unfold numbers
    split
    · exact (failsAmong_numberOf v).error (by simp) ‹_›
    · exact ih
    · exact ih.map

theorem Percentile.failsAmong_ofValues (values : List Value) (rank : Option Binary64) :
    FailsAmong [.beyondDouble] (ofValues values rank) := by
  unfold ofValues
  split
  · exact failsAmong_complain _
  · split
    · exact (failsAmong_numbers values).map
    · exact failsAmong_complain _

namespace Reduction

theorem failsAmong_ofBest (a : Archetype) (target : String) (op : Operator)
    (values : List Value) : FailsAmong [.undefinedDecimal] (ofBest a target op values) := by
  unfold ofBest
  split
  · exact failsAmong_ok _
  · exact failsAmong_faulty (by simp)
  · exact failsAmong_complain _

theorem failsAmong_ofSum (a : Archetype) (target : String) (result : Except SumFailure Value) :
    FailsAmong [.beyondDouble, .undefinedDecimal] (ofSum a target result) := by
  unfold ofSum
  split
  · exact failsAmong_ok _
  · exact failsAmong_faulty (by simp)
  · exact failsAmong_faulty (by simp)
  · exact failsAmong_complain _

theorem failsAmong_reduce (rows : List Record) (a : Archetype) (target : Option String)
    (rank : Option Binary64) :
    FailsAmong [.beyondDouble, .undefinedDecimal] (reduce rows a target rank) := by
  have hpercentile (rank : Option Binary64) : FailsAmong [.beyondDouble, .undefinedDecimal]
      (Percentile.ofValues (targetValues rows target) rank) :=
    (Percentile.failsAmong_ofValues _ _).mono (by simp)
  have hbest (name : String) (op : Operator) (values : List Value) :
      FailsAmong [.beyondDouble, .undefinedDecimal] (ofBest a name op values) :=
    (failsAmong_ofBest _ _ _ _).mono (by simp)
  fun_cases reduce rows a target rank with
  | case1 | case8 | case9 => exact failsAmong_ok _
  | case2 | case3 => exact hpercentile _
  | case4 | case5 => exact hbest _ _ _
  | case6 | case7 => exact failsAmong_ofSum _ _ _
  | case10 => exact failsAmong_complain _

end Reduction

namespace Bucket

theorem failsAmong_startOf (v : Value) (i : Interval) :
    FailsAmong [.numeralTooLong] (startOf v i) := by
  unfold startOf
  split
  · exact failsAmong_complain _
  · split
    · split
      · exact failsAmong_complain _
      · exact failsAmong_faulty (by simp)
    · exact failsAmong_ok _

theorem failsAmong_partitionFrom (i : Interval) (buckets : List Bucket) (rows : List Record) :
    FailsAmong [.numeralTooLong] (partitionFrom i buckets rows) := by
  induction rows generalizing buckets with
  | nil => exact failsAmong_ok _
  | cons row rest ih =>
    unfold partitionFrom
    split
    · exact (failsAmong_startOf _ _).error (by simp) ‹_›
    · exact ih _

theorem failsAmong_label (start : Int) (i : Interval) :
    FailsAmong [.yearUnnamed] (label start i) := by
  unfold label
  split
  · exact failsAmong_ok _
  · exact failsAmong_faulty (by simp)

theorem failsAmong_reduceAll (i : Interval) (a : Archetype) (target : Option String)
    (rank : Option Binary64) (buckets : List Bucket) :
    FailsAmong [.yearUnnamed, .beyondDouble, .undefinedDecimal]
      (reduceAll i a target rank buckets) := by
  induction buckets with
  | nil => exact failsAmong_ok _
  | cons b rest ih =>
    unfold reduceAll
    split
    · exact (failsAmong_label _ _).error (by simp) ‹_›
    · split
      · exact (Reduction.failsAmong_reduce _ _ _ _).error (by simp) ‹_›
      · exact ih.map

theorem failsAmong_reduce (rows : List Record) (i : Interval) (a : Archetype)
    (target : Option String) (rank : Option Binary64) :
    FailsAmong [.yearUnnamed, .numeralTooLong, .beyondDouble, .undefinedDecimal]
      (Bucket.reduce rows i a target rank) := by
  unfold Bucket.reduce
  split
  · exact (failsAmong_partitionFrom i [] rows).error (by simp) ‹_›
  · exact ((failsAmong_reduceAll _ _ _ _ _).mono (by simp)).map

end Bucket

namespace Group

theorem failsAmong_reduceAll (column : String) (a : Archetype) (target : Option String)
    (rank : Option Binary64) (name : String) (groups : List Group) :
    FailsAmong [.beyondDouble, .undefinedDecimal]
      (reduceAll column a target rank name groups) := by
  induction groups with
  | nil => exact failsAmong_ok _
  | cons g rest ih =>
    unfold reduceAll
    split
    · exact (Reduction.failsAmong_reduce _ _ _ _).error (by simp) ‹_›
    · exact ih.map

theorem failsAmong_reduce (rows : List Record) (column : String) (a : Archetype)
    (target : Option String) (rank : Option Binary64) (name : String) :
    FailsAmong [.beyondDouble, .undefinedDecimal]
      (Group.reduce rows column a target rank name) := by
  unfold Group.reduce
  split
  · exact failsAmong_ok _
  · split
    · exact (failsAmong_reduceAll _ _ _ _ _ _).map
    · exact failsAmong_complain _

end Group

/-! ## Answers of requests -/

namespace Shape

theorem failsAmong_aggregate (r : Request) (rows : List Record) :
    FailsAmong [.yearUnnamed, .numeralTooLong, .beyondDouble, .undefinedDecimal] (aggregate r rows) := by
  unfold aggregate
  split
  · exact Bucket.failsAmong_reduce _ _ _ _ _
  · exact failsAmong_ok _

theorem failsAmong_percentile (r : Request) (rows : List Record) (name : String) :
    FailsAmong [.yearUnnamed, .numeralTooLong, .beyondDouble, .undefinedDecimal] (percentile r rows name) := by
  unfold percentile
  split
  · exact Bucket.failsAmong_reduce _ _ _ _ _
  · split
    · exact (Group.failsAmong_reduce _ _ _ _ _ _).mono (by simp)
    · exact ((Percentile.failsAmong_ofValues _ _).mono (by simp)).map

theorem failsAmong_ofRows (r : Request) (rows : List Record) :
    FailsAmong [.yearUnnamed, .numeralTooLong, .beyondDouble, .undefinedDecimal] (ofRows r rows) := by
  unfold ofRows
  split
  · exact failsAmong_ok _
  · split
    · exact failsAmong_percentile _ _ _
    · exact failsAmong_aggregate _ _

end Shape

/-! ## Views -/

namespace Rollup

theorem failsAmong_entry (rollup : Record) (key : String) :
    FailsAmong [.beyondDouble] (entry rollup key) := by
  fun_cases entry rollup key with
  | case1 | case2 | case4 => exact failsAmong_ok _
  | case3 => exact failsAmong_faulty (by simp)
  | case5 => exact failsAmong_complain _

theorem failsAmong_entries (rollup : Record) (keys : List String) :
    FailsAmong [.beyondDouble] (entries rollup keys) := by
  induction keys with
  | nil => exact failsAmong_ok _
  | cons key rest ih =>
    unfold entries
    split
    · exact (failsAmong_entry rollup key).error (by simp) ‹_›
    · split
      · exact ih.error (by simp) ‹_›
      · exact failsAmong_ok _

theorem failsAmong_day (rollup : Record) (d : Date) :
    FailsAmong [.beforeFirstDay, .beyondDouble] (day rollup d) := by
  have hentry (key : String) : FailsAmong [.beforeFirstDay, .beyondDouble] (entry rollup key) :=
    (failsAmong_entry rollup key).mono (by simp)
  unfold day
  split
  · exact failsAmong_faulty (by simp)
  · refine (hentry _).bind fun _ _ => (hentry _).bind fun _ _ => (hentry _).bind fun _ _ => ?_
    exact (hentry _).bind fun _ _ => (hentry _).bind fun _ _ => failsOnly_ok _

theorem failsAmong_daysUpTo (rollup : Record) (d : Date) (n : Nat) :
    FailsAmong [.beforeFirstDay, .beyondDouble] (daysUpTo rollup d n) := by
  induction n generalizing d with
  | zero => exact failsAmong_ok _
  | succ n ih =>
    unfold daysUpTo
    split
    · exact (failsAmong_day rollup d).error (by simp) ‹_›
    · split
      · exact (ih _).error (by simp) ‹_›
      · exact failsAmong_ok _

theorem failsAmong_viewOf (rollup : Record) (keys : List String) (bucket : String) :
    FailsAmong [.beyondDouble] (viewOf rollup keys bucket) := by
  refine (failsAmong_entries rollup keys).bind fun _ _ => ?_
  refine (failsAmong_entry rollup _).bind fun _ _ => (failsAmong_entry rollup _).bind fun _ _ => ?_
  exact (failsAmong_entry rollup _).bind fun _ _ => failsOnly_ok _

theorem failsAmong_view (rollup : Record) (t : ViewType) (reference : Date) :
    FailsAmong [.beforeFirstDay, .beyondDouble] (view rollup t reference) := by
  cases t with
  | day | month => exact (failsAmong_viewOf _ _ _).mono (by simp)
  | week => exact (failsAmong_daysUpTo _ _ _).map

end Rollup

namespace History

theorem failsAmong_viewType (raw : Option String) : FailsAmong [] (viewType raw) := by
  unfold viewType
  split
  · exact failsAmong_ok _
  · exact failsAmong_complain _

theorem failsAmong_referenceDate (raw : Option String) (today : Date) :
    FailsAmong [.yearUnnamed] (referenceDate raw today) := by
  unfold referenceDate
  split
  · exact failsAmong_ok _
  · split
    · exact failsAmong_complain _
    · split
      · exact failsAmong_ok _
      · exact failsAmong_faulty (by simp)

end History

/-! ## Listings -/

namespace Listing

theorem failsAmong_tableField (r : Record) :
    FailsAmong [.missingField, .notText] (tableField r) := by
  unfold tableField
  split
  · exact failsAmong_faulty (by simp)
  · exact failsAmong_ok _
  · exact failsAmong_faulty (by simp)

theorem failsAmong_columnField (r : Record) :
    FailsAmong [.missingField, .malformed, .notKey] (columnField r) := by
  unfold columnField
  split
  · exact failsAmong_faulty (by simp)
  · exact failsAmong_ok _
  · split
    · exact failsAmong_faulty (by simp)
    · exact failsAmong_faulty (by simp)

theorem failsAmong_typeField (r : Record) : FailsAmong [.malformed] (typeField r) := by
  unfold typeField
  split
  · exact failsAmong_ok _
  · exact failsAmong_ok _
  · exact failsAmong_faulty (by simp)

theorem failsAmong_ofRow (project : String) (r : Record) :
    FailsAmong [.missingField, .notText, .malformed, .notKey] (ofRow project r) := by
  refine ((failsAmong_tableField r).mono (by simp)).bind fun table _ => ?_
  split
  · exact failsOnly_ok _
  · refine ((failsAmong_columnField r).mono (by simp)).bind fun column _ => ?_
    split
    · exact failsOnly_ok _
    · exact ((failsAmong_typeField r).mono (by simp)).bind fun _ _ => failsOnly_ok _

theorem failsAmong_ofRowsFrom (project : String) (listed : List (String × List ColumnInfo))
    (rows : List Record) :
    FailsAmong [.missingField, .notText, .malformed, .notKey]
      (ofRowsFrom project listed rows) := by
  induction rows generalizing listed with
  | nil => exact failsAmong_ok _
  | cons row rest ih =>
    unfold ofRowsFrom
    split
    · exact (failsAmong_ofRow project row).error (by simp) ‹_›
    · exact ih _
    · exact ih _

end Listing
end EventQuery
