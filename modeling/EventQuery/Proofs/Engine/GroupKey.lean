import EventQuery.Proofs.Engine.Builders
import EventQuery.Proofs.Reduction.Group

/-!
# EventQuery.Proofs.Engine.GroupKey

The rows of a grouped request. Each of them is made of two labels, the grouping column and the
request's `resultLabel`, whether the store computes it or it is reduced from fetched rows
(`keeps_group_keys_iff`). A row has a field for each label and no field twice, so the key of a group
is kept, and groups are told apart, exactly when the two labels differ (`keepsKeys_iff`).
-/

namespace EventQuery

/-- The label of what a request computes without an interval. -/
def Request.resultLabel (r : Request) : String :=
  r.archetype.resultName?.getD r.computed.label

namespace Group

/-! ## Rows of a key and a result -/

/-- What a row keeps under two labels: each value under its own, and different keys in different
rows. -/
structure KeepsKeys (column name : String) : Prop where
  key : ∀ k x, Record.find? (row column name k x) column = some k
  result : ∀ k x, Record.find? (row column name k x) name = some x
  apart : ∀ k x l y, Reduction.Apart k l →
    Reduction.Apart (.object (row column name k x)) (.object (row column name l y))

theorem keepsKeys_iff {column name : String} : KeepsKeys column name ↔ column ≠ name := by
  constructor
  · -- with one label for both, the result takes the place of the key
    rintro hkeeps rfl
    have hkey := hkeeps.key .null (.bool true)
    rw [row_self, Record.find?, List.lookup_cons_self] at hkey
    cases hkey
  · intro hne
    refine ⟨fun k x => ?_, fun k x => ?_, fun k x l y hkl => ?_⟩
    · rw [row_of_ne hne, Record.find?, List.lookup_cons_self]
    · exact Assoc.lookup_set_self name x _
    · rw [row_of_ne hne, row_of_ne hne]
      simp [Reduction.Apart, Value.same, Value.sameFields, show k.same l = false from hkl]

theorem decodeRecord_row (column name : String) (k x : Value) :
    Client.decodeRecord (row column name k x)
      = row column name (Client.decode k) (Client.decode x) := by
  by_cases h : column = name
  · subst h
    rw [row_self, row_self]
    rfl
  · rw [row_of_ne h, row_of_ne h]
    rfl

end Group

namespace Engine

variable {a : Archetype} {project g : String} {p : Params} {defaultLatest : Int} {r : Request}

/-- A grouped request without an interval is no extraction. -/
theorem archetype_of_groupBy (h : Gate.request a project p defaultLatest = .ok r)
    (hgroup : r.groupBy = some g) : r.archetype ≠ .extraction := by
  intro hextraction
  have hconsistent := Gate.consistent_of_request h
  rw [hconsistent.archetype] at hextraction
  have hnone := (hconsistent.extraction hextraction).2.1
  rw [hgroup] at hnone
  cases hnone

theorem present_groupBy (h : Gate.request a project p defaultLatest = .ok r)
    (hgroup : r.groupBy = some g) : present r.groupBy = some g := by
  rw [hgroup]
  exact present_of_isProperty ((Gate.accepted_of_request h).groupBy g hgroup)

/-- The labels of the rows that the store computes. -/
theorem labels_assemble {s : Settings} {window : Option Window}
    {stats : Option (String × Statistics)} {kinds : List (String × ColumnKind)}
    {filters : List Filter} {st : Statement} (h : Gate.request a project p defaultLatest = .ok r)
    (hgroup : r.groupBy = some g) (hinterval : r.interval = none)
    (hstored : r.archetype.resultName? = none)
    (hcoerce : Filter.coerceAll kinds r.filters = .ok filters)
    (hst : assemble s { r with filters } window stats = .ok st) :
    (Statement.items? st.sql).map (List.map Item.label) = some [g, r.resultLabel] := by
  have hraw := r.not_fetchesRows hstored (archetype_of_groupBy h hgroup) hinterval
  rw [items?_assemble h hraw hcoerce hst, Request.items, present_groupBy h hgroup,
    Request.resultLabel, hstored]
  rfl

/-- The rows of the store are the answer as they are. -/
theorem ofRows_of_stored (h : Gate.request a project p defaultLatest = .ok r)
    (hgroup : r.groupBy = some g) (hinterval : r.interval = none)
    (hstored : r.archetype.resultName? = none) (rows : List Record) :
    Shape.ofRows r rows = .ok (Shape.rowValues rows) := by
  unfold Shape.ofRows
  split
  · exact absurd (by assumption) (archetype_of_groupBy h hgroup)
  · rw [hstored]
    simp only [Shape.aggregate, hinterval]

/-- The rows of the groups of fetched rows. -/
theorem ofRows_of_fetched (h : Gate.request a project p defaultLatest = .ok r)
    (hgroup : r.groupBy = some g) (hinterval : r.interval = none)
    (hfetched : r.archetype.resultName? ≠ none) {rows : List Record} {v : Value}
    (hv : Shape.ofRows r rows = .ok v) :
    ∃ out, v = Shape.rowValues out ∧
      List.Forall₂ (Group.ReducesTo g r.archetype r.target r.rank r.resultLabel)
        (Group.partition rows g) out := by
  obtain ⟨name, hname⟩ := Option.ne_none_iff_exists'.mp hfetched
  have hlabel : r.resultLabel = name := by rw [Request.resultLabel, hname, Option.getD_some]
  have hshape : Shape.ofRows r rows = Group.reduce rows g r.archetype r.target r.rank name := by
    unfold Shape.ofRows
    split
    · exact absurd (by assumption) (archetype_of_groupBy h hgroup)
    · rw [hname]
      simp only [Shape.percentile, hinterval, present_groupBy h hgroup]
  rw [hshape] at hv
  rw [hlabel]
  exact Group.reduce_eq_ok hv

theorem keeps_group_keys_iff (h : Gate.request a project p defaultLatest = .ok r)
    (hgroup : r.groupBy = some g) (hinterval : r.interval = none) :
    (r.archetype.resultName? = none →
      (∀ s kinds filters window stats st, Filter.coerceAll kinds r.filters = .ok filters →
        assemble s { r with filters } window stats = .ok st →
        (Statement.items? st.sql).map (List.map Item.label) = some [g, r.resultLabel]) ∧
      ∀ pairs : List (Value × Value),
        Shape.ofRows r (pairs.map fun (k, x) =>
            Client.decodeRecord (Assoc.ofList ([g, r.resultLabel].zip [k, x])))
          = .ok (Shape.rowValues (pairs.map fun (k, x) =>
              Group.row g r.resultLabel (Client.decode k) (Client.decode x)))) ∧
    (r.archetype.resultName? ≠ none → ∀ rows v, Shape.ofRows r rows = .ok v →
      (Group.partition rows g).Pairwise (fun b c => Reduction.Apart b.key c.key) ∧
      ∃ out, v = Shape.rowValues out ∧
        List.Forall₂ (Group.ReducesTo g r.archetype r.target r.rank r.resultLabel)
          (Group.partition rows g) out) ∧
    (Group.KeepsKeys g r.resultLabel ↔ g ≠ r.resultLabel) := by
  refine ⟨fun hstored => ⟨?_, fun pairs => ?_⟩, fun hfetched rows v hv => ?_, Group.keepsKeys_iff⟩
  · intro s kinds filters window stats st hcoerce hst
    exact labels_assemble h hgroup hinterval hstored hcoerce hst
  · rw [ofRows_of_stored h hgroup hinterval hstored]
    simp only [← Group.decodeRecord_row]
    rfl
  · exact ⟨Group.pairwise_partition rows g, ofRows_of_fetched h hgroup hinterval hfetched hv⟩

/-- The median voltage for each value of a column. -/
def mediansBy (column : String) : Params where
  eventCollection := some "measurements"
  targetProperty := some "voltage"
  groupBy := some column

def mediansOf (column : String) : Request where
  archetype := .median
  project := "p1"
  collection := "measurements"
  target := some "voltage"
  targets := []
  rank := some Archetype.medianRank
  groupBy := some column
  latest := 5000
  interval := none
  outliers := .include
  outliersIn := none
  filters := []
  timeframe := none
  byColumn := false

/-- One event for each of two values of a column, both of the same voltage. -/
def oneEach (column : String) (x : Binary64) : List Record :=
  [[(column, .text "a"), ("voltage", .float x)], [(column, .text "b"), ("voltage", .float x)]]

theorem place_one : Percentile.place 1 Archetype.medianRank = 0 := by
  have hhalf : (((Binary64.ofInt 1).mul (Archetype.medianRank.div (.ofInt 100))).sub
      (.ofInt 1)).toRat = -1 / 2 := by decide +kernel
  have hceil : (-1 / 2 : Rat).ceil = 0 := by decide +kernel
  unfold Percentile.place Binary64.ceil
  dsimp only
  rw [Nat.cast_one, hhalf, hceil]
  rfl

/-- The median of one number is that number. -/
theorem ofValues_single {x : Binary64} (hnan : x.isNaN = false) :
    Percentile.ofValues [.float x] (some Archetype.medianRank) = .ok (.float x) := by
  have hrank : Percentile.isRank Archetype.medianRank = true := by decide +kernel
  have hnumbers : Percentile.numbers [.float x] = .ok [x] := rfl
  have hvalue : Percentile.ofNumbers [x] Archetype.medianRank = .float x := by
    unfold Percentile.ofNumbers
    rw [if_neg (by simp), if_neg (by simp [hnan]), List.length_singleton, place_one]
    rfl
  rw [Percentile.ofValues, if_pos hrank, hnumbers, Except.map, hvalue]

/-- Each of the two values has a median of its own. -/
theorem ofRows_oneEach {column : String} {x : Binary64}
    (hpresent : present (some column) = some column) (hvoltage : column ≠ "voltage")
    (hnan : x.isNaN = false) :
    Shape.ofRows (mediansOf column) (oneEach column x)
      = .ok (Shape.rowValues [Group.row column "median" (.text "a") (.float x),
          Group.row column "median" (.text "b") (.float x)]) := by
  have hne : ("voltage" == column) = false := by simpa using hvoltage.symm
  have hother : Value.same (.text "a") (.text "b") = false := rfl
  have hpartition : Group.partition (oneEach column x) column
      = (oneEach column x).map fun row => ⟨Record.value row column, [row]⟩ := by
    simp [Group.partition_eq_scan, Group.scan, oneEach, Group.add, Record.value, Record.find?,
      hother]
  have hreduce (key : Value) :
      Reduction.reduce [[(column, key), ("voltage", .float x)]] .median (some "voltage")
        (some Archetype.medianRank) = .ok (.float x) := by
    rw [← ofValues_single hnan]
    simp [Reduction.reduce, Reduction.targetValues, Record.value, Record.find?, List.lookup_cons,
      hne]
  have hshape : Shape.ofRows (mediansOf column) (oneEach column x)
      = Group.reduce (oneEach column x) column .median (some "voltage")
          (some Archetype.medianRank) "median" := by
    simp only [Shape.ofRows, mediansOf, Archetype.resultName?, Shape.percentile, hpresent]
  have hhas : Record.has [(column, .text "a"), ("voltage", .float x)] column = true := by
    simp [Record.has, Record.find?]
  rw [hshape, oneEach, Group.reduce, if_pos hhas, ← oneEach, hpartition]
  simp only [oneEach, List.map_cons, List.map_nil, Group.reduceAll, hreduce]
  simp [Except.map, Shape.rowValues, Group.row, Record.value, Record.find?]

theorem keeps_group_keys_devices :
    Group.KeepsKeys "device" (mediansOf "device").resultLabel ∧
      ∃ out, Shape.ofRows (mediansOf "device") (oneEach "device" .zero)
          = .ok (Shape.rowValues out) ∧
        List.Forall₂ (Group.ReducesTo "device" .median (some "voltage") (some Archetype.medianRank)
            (mediansOf "device").resultLabel)
          (Group.partition (oneEach "device" .zero) "device") out := by
  have hgate : Gate.request .median "p1" (mediansBy "device") 5000 = .ok (mediansOf "device") := rfl
  obtain ⟨-, hfetched, hkeeps⟩ := keeps_group_keys_iff hgate (g := "device") rfl rfl
  have hreduced : Shape.ofRows (mediansOf "device") (oneEach "device" .zero) = .ok _ :=
    ofRows_oneEach rfl (by decide) rfl
  obtain ⟨-, out, hout, hrows⟩ := hfetched (by decide) _ _ hreduced
  rw [hout] at hreduced
  exact ⟨hkeeps.mpr (by decide), out, hreduced, hrows⟩

theorem loses_group_keys :
    Gate.request .median "p1" (mediansBy "median") 5000 = .ok (mediansOf "median") ∧
      Shape.ofRows (mediansOf "median") (oneEach "median" .zero)
        = .ok (Shape.rowValues [[("median", .float .zero)], [("median", .float .zero)]]) ∧
      ¬Group.KeepsKeys "median" (mediansOf "median").resultLabel := by
  refine ⟨rfl, ofRows_oneEach rfl (by decide) rfl, fun h => ?_⟩
  exact Group.keepsKeys_iff.mp h rfl

end Engine
end EventQuery
