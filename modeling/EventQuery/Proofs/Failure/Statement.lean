import EventQuery.Engine
import EventQuery.Proofs.Filter.Agreement
import EventQuery.Proofs.Outcome
import Mathlib.Tactic.SplitIfs

/-!
# EventQuery.Proofs.Failure.Statement

What can go wrong on the way to a statement. Names and the builders of statements only complain;
times can lie outside the years of the calendar, and numbers outside the range of doubles
(`failsAmong_resolve`, `failsAmong_coerceAll`). Nothing here turns a caller away.
-/

namespace EventQuery

open Outcome

/-! ## Names -/

namespace Name

theorem failsAmong_flat (what : String) (v : Value) : FailsAmong [] (flat what v) := by
  unfold flat
  split
  · split
    · exact failsAmong_ok _
    · exact failsAmong_complain _
  · exact failsAmong_complain _

theorem failsAmong_property (what : String) (v : Value) : FailsAmong [] (property what v) := by
  unfold property
  split
  · split
    · exact failsAmong_complain _
    · split
      · exact failsAmong_ok _
      · exact failsAmong_complain _
  · exact failsAmong_complain _

theorem failsAmong_quotedColumn (v : Value) : FailsAmong [] (quotedColumn v) := by
  unfold quotedColumn
  split
  · exact failsAmong_ok _
  · exact (failsAmong_property "column" v).error (by simp) ‹_›

theorem failsAmong_quotedTable (project collection : Value) :
    FailsAmong [] (quotedTable project collection) := by
  unfold quotedTable
  split
  · exact (failsAmong_flat _ project).error (by simp) ‹_›
  · exact (failsAmong_flat _ collection).error (by simp) ‹_›
  · exact failsAmong_ok _

end Name

/-! ## Filters -/

theorem DateTime.failsAmong_inUtc (t : DateTime) : FailsAmong [.yearOutOfRange] t.inUtc := by
  unfold inUtc
  split
  · exact failsAmong_ok _
  · exact failsAmong_faulty (by simp)

theorem Value.failsAmong_utc? (v : Value) : FailsAmong [.yearOutOfRange] v.utc? := by
  unfold utc?
  split
  · exact failsAmong_ok _
  · exact (DateTime.failsAmong_inUtc _).map

namespace Filter

theorem failsAmong_refuse (column wanted : String) (v : Value) :
    FailsAmong [.numeralTooLong] (refuse column wanted v) := by
  unfold refuse
  split
  · exact failsAmong_complain _
  · exact failsAmong_faulty (by simp)

theorem failsAmong_toTimestamp (column : String) (v : Value) :
    FailsAmong [.yearOutOfRange, .numeralTooLong] (toTimestamp column v) := by
  unfold toTimestamp
  split
  · exact v.failsAmong_utc?.error (by simp) ‹_›
  · exact failsAmong_ok _
  · exact (failsAmong_refuse _ _ _).mono (by simp)

theorem failsAmong_toNumber (column : String) (v : Value) :
    FailsAmong [.beyondDouble, .numeralTooLong] (toNumber column v) := by
  -- by the cases of the definition, so that no double is computed
  fun_cases toNumber column v with
  | case1 | case3 | case4 => exact failsAmong_ok _
  | case2 => exact failsAmong_faulty (by simp)
  | case5 | case6 => exact (failsAmong_refuse _ _ _).mono (by simp)

theorem failsAmong_toText (column : String) (v : Value) :
    FailsAmong [.numeralTooLong] (toText column v) := by
  fun_cases toText column v with
  | case1 | case2 | case5 => exact failsAmong_ok _
  | case3 n hshown =>
    rw [if_pos hshown]
    exact failsAmong_ok _
  | case4 n hlong =>
    rw [if_neg hlong]
    exact failsAmong_faulty (by simp)
  | case6 => exact failsAmong_refuse _ _ _

theorem failsAmong_toBoolean (column : String) (v : Value) :
    FailsAmong [.numeralTooLong] (toBoolean column v) := by
  fun_cases toBoolean column v with
  | case1 | case2 | case3 | case5 | case6 | case8 | case9 => exact failsAmong_ok _
  | case4 | case7 | case10 | case11 => exact failsAmong_refuse _ _ _

theorem failsAmong_coerceValue (column : String) (v : Value) (kind : ColumnKind) :
    FailsAmong [.yearOutOfRange, .beyondDouble, .numeralTooLong] (coerceValue column v kind) := by
  unfold coerceValue
  split
  · exact failsAmong_ok _
  · cases kind with
    | other => exact failsAmong_ok _
    | timestamp => exact (failsAmong_toTimestamp column v).mono (by simp)
    | number => exact (failsAmong_toNumber column v).mono (by simp)
    | text => exact (failsAmong_toText column v).mono (by simp)
    | boolean => exact (failsAmong_toBoolean column v).mono (by simp)

variable (kinds : List (String × ColumnKind))

theorem failsAmong_coerce (f : Filter) :
    FailsAmong [.yearOutOfRange, .beyondDouble, .numeralTooLong] (coerce kinds f) := by
  unfold coerce
  split
  · exact failsAmong_ok _
  · exact (failsAmong_coerceValue _ _ _).map

theorem failsAmong_coerceAll (filters : List Filter) :
    FailsAmong [.yearOutOfRange, .beyondDouble, .numeralTooLong] (coerceAll kinds filters) := by
  induction filters with
  | nil => exact failsAmong_ok _
  | cons f rest ih =>
    unfold coerceAll
    split
    · exact (failsAmong_coerce kinds f).error (by simp) ‹_›
    · split
      · exact ih.error (by simp) ‹_›
      · exact failsAmong_ok _

theorem failsAmong_checkColumns (filters : List Filter) : FailsAmong [] (checkColumns filters) := by
  induction filters with
  | nil => exact failsAmong_ok _
  | cons f rest ih =>
    unfold checkColumns
    split
    · exact (Name.failsAmong_property _ _).error (by simp) ‹_›
    · exact ih

theorem failsAmong_predicate (filters : List Filter) : FailsAmong [] (predicate filters) := by
  unfold predicate
  split
  · exact failsAmong_ok _
  · exact (failsAmong_checkColumns filters).map

end Filter

/-! ## Timeframes -/

namespace Timeframe

theorem failsAmong_resolveRelative (expression : String) (now : DateTime) :
    FailsAmong [.numeralTooLong] (resolveRelative expression now) := by
  unfold resolveRelative
  split
  · exact failsAmong_complain _
  · split
    · exact failsAmong_faulty (by simp)
    · dsimp only
      split
      · exact failsAmong_complain _
      · split
        · exact failsAmong_ok _
        · exact failsAmong_complain _

theorem failsAmong_bound (fields : Record) (field : String) :
    FailsAmong [.yearOutOfRange] (bound fields field) := by
  unfold bound
  split
  · exact failsAmong_complain _
  · split
    · exact failsAmong_complain _
    · split
      · exact failsAmong_complain _
      · exact DateTime.failsAmong_inUtc _

theorem failsAmong_resolveAbsolute (fields : Record) :
    FailsAmong [.yearOutOfRange] (resolveAbsolute fields) := by
  unfold resolveAbsolute
  split
  · exact (failsAmong_bound fields _).error (by simp) ‹_›
  · split
    · exact (failsAmong_bound fields _).error (by simp) ‹_›
    · split
      · exact failsAmong_ok _
      · exact failsAmong_complain _

theorem failsAmong_resolveText (raw : String) (now : DateTime) :
    FailsAmong [.numeralTooLong, .yearOutOfRange] (resolveText raw now) := by
  unfold resolveText
  dsimp only
  split
  · split
    · exact (failsAmong_resolveAbsolute _).mono (by simp)
    · exact failsAmong_complain _
  · exact (failsAmong_resolveRelative _ _).mono (by simp)

theorem failsAmong_resolve (timeframe : Value) (now : DateTime) :
    FailsAmong [.numeralTooLong, .yearOutOfRange] (resolve timeframe now) := by
  unfold resolve
  split
  · split
    · exact failsAmong_ok _
    · exact (failsAmong_resolveText _ _).map
  · exact ((failsAmong_resolveAbsolute _).mono (by simp)).map
  · exact failsAmong_ok _

end Timeframe

/-! ## Statements -/

namespace Statement

theorem failsAmong_statistics (project collection property : Value) :
    FailsAmong [] (statistics project collection property) := by
  unfold statistics
  split
  · exact (Name.failsAmong_quotedTable _ _).error (by simp) ‹_›
  · split
    · exact (Name.failsAmong_quotedColumn _).error (by simp) ‹_›
    · exact failsAmong_ok _

theorem failsAmong_collections (project : Value) : FailsAmong [] (collections project) := by
  unfold collections
  split
  · exact (Name.failsAmong_flat _ _).error (by simp) ‹_›
  · exact failsAmong_ok _

theorem failsAmong_columnTypes (project collection : Value) :
    FailsAmong [] (columnTypes project collection) := by
  unfold columnTypes
  split
  · exact (Name.failsAmong_flat _ _).error (by simp) ‹_›
  · split
    · exact (Name.failsAmong_flat _ _).error (by simp) ‹_›
    · exact failsAmong_ok _

theorem failsAmong_quotedColumns (names : List String) : FailsAmong [] (quotedColumns names) := by
  induction names with
  | nil => exact failsAmong_ok _
  | cons name rest ih =>
    unfold quotedColumns
    split
    · exact (Name.failsAmong_quotedColumn _).error (by simp) ‹_›
    · split
      · exact ih.error (by simp) ‹_›
      · exact failsAmong_ok _

theorem failsAmong_optionalColumn (name : Option String) :
    FailsAmong [] (optionalColumn name) := by
  unfold optionalColumn
  split
  · exact failsAmong_ok _
  · exact (Name.failsAmong_quotedColumn _).map

theorem failsAmong_aggregateText (r : Request) : FailsAmong [] (aggregateText r) := by
  unfold aggregateText
  split
  · exact (Name.failsAmong_quotedColumn _).map
  · exact (failsAmong_optionalColumn _).map

theorem failsAmong_selection (r : Request) : FailsAmong [] (selection r) := by
  have hraw : FailsAmong [] (rawSelection r) := by
    unfold rawSelection
    split
    · exact failsAmong_ok _
    · exact (failsAmong_optionalColumn _).map
  unfold selection
  split
  · unfold extractionSelection
    split
    · exact failsAmong_ok _
    · exact (failsAmong_quotedColumns _).map
  · exact hraw
  · exact hraw
  · split
    · exact hraw
    · unfold aggregateSelection
      split
      · exact (failsAmong_aggregateText r).error (by simp) ‹_›
      · exact (failsAmong_optionalColumn _).map

theorem failsAmong_ofRequest (r : Request) (ps : List Predicate) :
    FailsAmong [] (ofRequest r ps) := by
  unfold ofRequest ofTexts
  split
  · exact (Name.failsAmong_quotedTable _ _).error (by simp) ‹_›
  · exact (failsAmong_selection r).map

end Statement

theorem Statistics.failsAmong_predicate (stats : Statistics) (column : Value) (mode : OutlierMode)
    (width : Binary64) : FailsAmong [] (stats.predicate column mode width) := by
  unfold predicate
  split
  · exact failsAmong_ok _
  · exact (Name.failsAmong_property _ _).map

theorem Engine.failsAmong_assemble (s : Settings) (r : Request) (window : Option Window)
    (stats : Option (String × Statistics)) : FailsAmong [] (assemble s r window stats) := by
  have hband : FailsAmong [] (band s r stats) := by
    unfold band
    split
    · exact failsAmong_ok _
    · exact Statistics.failsAmong_predicate _ _ _ _
  unfold assemble
  split
  · exact hband.error (by simp) ‹_›
  · split
    · exact (Filter.failsAmong_predicate _).error (by simp) ‹_›
    · exact Statement.failsAmong_ofRequest _ _

end EventQuery
