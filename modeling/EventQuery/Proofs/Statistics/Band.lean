import EventQuery.Proofs.Binary64.Monotone
import EventQuery.Proofs.Engine.Conditions
import EventQuery.Proofs.Value.Comparison

/-!
# EventQuery.Proofs.Statistics.Band

The two sides of a band. A number is inside the band of some finite statistics or outside it, never
both, wherever the ends of the band lie and also when they are the wrong way round
(`keeps_exclude_iff`). A wider band has its ends further out, as rounding keeps the order of what
is rounded (`rank_band_mono`), so it keeps every row that a narrower one keeps
(`keeps_exclude_mono`). `splits_by_band` says both of the texts of the conditions.
-/

namespace EventQuery

variable {u : Value} {q : Quantity} {a b : Extended} {x y : Binary64} {op : Operator}
  {row : Record} {column : String}

/-! ## Numbers against doubles -/

namespace Binary64

theorem isNaN_of_extended (h : x.quantity.extended? = some a) : x.isNaN = false := by
  cases x with
  | nan => cases h
  | signed negative place => rfl

/-- The exact values of doubles are in the order of their ranks. -/
theorem extended_le_iff (ha : x.quantity.extended? = some a) (hb : y.quantity.extended? = some b) :
    a ≤ b ↔ x.rank ≤ y.rank := by
  have hkeys := Quantity.compare?_eq ha hb
  rw [compare?_quantity (isNaN_of_extended ha) (isNaN_of_extended hb)] at hkeys
  have hcmp : cmp x.rank y.rank = cmp a b := Option.some.inj hkeys
  rw [← not_lt, ← not_lt, ← cmp_eq_gt_iff, ← cmp_eq_gt_iff, hcmp]

end Binary64

theorem Operator.truth_float (hu : u.quantity? = some q) (ha : q.extended? = some a)
    (hb : x.quantity.extended? = some b) (op : Operator) :
    op.truth u (.float x) = some (decide (op.Relates a b)) := by
  have hstands := Value.stands_of_quantity hu (v := .float x) rfl (Quantity.compare?_eq ha hb)
  rw [truth, hstands.compare?_eq, ← accepts_cmp]

theorem Record.satisfies_float_iff (hrow : row.find? column = some u)
    (hu : u.quantity? = some q) (ha : q.extended? = some a) (hb : x.quantity.extended? = some b)
    (op : Operator) : row.Satisfies column op (.float x) ↔ op.Relates a b := by
  have htruth := Operator.truth_float hu ha hb op
  simp [Satisfies, hrow, htruth]

/-- Only a number has an order with a double, and NaN has none. -/
theorem Value.quantity_of_compare?_float {o : Ordering} (h : u.compare? (.float x) = .ok (some o)) :
    ∃ q, u.quantity? = some q ∧ q ≠ .undefined := by
  cases hu : u.quantity? with
  | none => cases u <;> first | cases h | cases hu
  | some q =>
    refine ⟨q, rfl, ?_⟩
    rintro rfl
    rw [compare?_of_quantity hu rfl] at h
    dsimp only [Quantity.compare?] at h
    split at h <;> cases h

theorem Record.Satisfies.exists_quantity (h : row.Satisfies column op (.float x)) :
    ∃ u q, row.find? column = some u ∧ u.quantity? = some q ∧ q ≠ .undefined := by
  obtain ⟨u, hrow, htruth⟩ := h
  unfold Operator.truth at htruth
  split at htruth
  · rename_i o hcompare
    obtain ⟨q, hu, hq⟩ := Value.quantity_of_compare?_float hcompare
    exact ⟨u, q, hrow, hu, hq⟩
  · cases htruth

/-! ## Bands -/

namespace Statistics

variable {stats : Statistics} {mean width width' : Binary64} {stddev : Option Binary64}

/-- Mean and standard deviation are finite, as far as they are there. -/
structure IsFinite (stats : Statistics) : Prop where
  mean : ∀ x ∈ stats.mean, x.isFinite = true
  stddev : ∀ x ∈ stats.stddev, x.isFinite = true

/-- The standard deviation, zero when there is none. -/
def deviation (stddev : Option Binary64) : Binary64 :=
  (stddev.filter (!·.isZero)).getD .zero

theorem band_eq (mean : Binary64) (stddev : Option Binary64) (width : Binary64) :
    band mean stddev width
      = (mean.sub (width.mul (deviation stddev)), mean.add (width.mul (deviation stddev))) := rfl

theorem deviation_eq (stddev : Option Binary64) :
    deviation stddev = .zero ∨ stddev = some (deviation stddev) := by
  cases stddev with
  | none => exact .inl rfl
  | some x =>
    cases hzero : x.isZero with
    | true => exact .inl (by simp [deviation, Option.filter, hzero])
    | false => exact .inr (by simp [deviation, Option.filter, hzero])

theorem isFinite_deviation (h : ∀ x ∈ stddev, x.isFinite = true) :
    (deviation stddev).isFinite = true := by
  rcases deviation_eq stddev with hzero | hsome
  · rw [hzero]
    rfl
  · exact h _ hsome

theorem rank_deviation_nonneg (h : ∀ x ∈ stddev, Binary64.zero.atMost x = true) :
    0 ≤ (deviation stddev).rank := by
  rcases deviation_eq stddev with hzero | hsome
  · rw [hzero]
    decide
  · exact Binary64.rank_le_of_atMost (h _ hsome)

/-- The ends of a band are numbers. -/
theorem isNaN_band (hmean : mean.isFinite = true) (hstddev : ∀ x ∈ stddev, x.isFinite = true)
    (hwidth : width.isFinite = true) :
    (band mean stddev width).1.isNaN = false ∧ (band mean stddev width).2.isNaN = false := by
  have hhalf := Binary64.isNaN_mul hwidth (isFinite_deviation hstddev)
  rw [band_eq]
  refine ⟨Binary64.isNaN_add hmean ?_, Binary64.isNaN_add hmean hhalf⟩
  rw [Binary64.isNaN_neg]
  exact hhalf

/-- The ends of a wider band are further out. -/
theorem rank_band_mono (hmean : mean.isFinite = true) (hstddev : ∀ x ∈ stddev, x.isFinite = true)
    (hnonneg : ∀ x ∈ stddev, Binary64.zero.atMost x = true) (hwidth : width.isFinite = true)
    (hwidth' : width'.isFinite = true) (hle : width.rank ≤ width'.rank) :
    (band mean stddev width').1.rank ≤ (band mean stddev width).1.rank ∧
      (band mean stddev width).2.rank ≤ (band mean stddev width').2.rank := by
  have hfinite := isFinite_deviation hstddev
  have hhalf := Binary64.isNaN_mul hwidth hfinite
  have hhalf' := Binary64.isNaN_mul hwidth' hfinite
  have hmono := Binary64.rank_mul_mono hwidth hwidth' hfinite hle (rank_deviation_nonneg hnonneg)
  rw [band_eq, band_eq]
  refine ⟨Binary64.rank_add_mono hmean ?_ ?_ ?_, Binary64.rank_add_mono hmean hhalf hhalf' hmono⟩
  · rwa [Binary64.isNaN_neg]
  · rwa [Binary64.isNaN_neg]
  · rw [Binary64.rank_neg, Binary64.rank_neg]
    omega

/-! ## Rows -/

theorem keeps_exclude_some :
    Keeps ⟨some mean, stddev⟩ .exclude width column row ↔
      row.Satisfies column .gte (.float (band mean stddev width).1) ∧
        row.Satisfies column .lte (.float (band mean stddev width).2) := Iff.rfl

theorem keeps_only_some :
    Keeps ⟨some mean, stddev⟩ .only width column row ↔
      row.Satisfies column .lt (.float (band mean stddev width).1) ∨
        row.Satisfies column .gt (.float (band mean stddev width).2) := Iff.rfl

/-- Both sides of a band are bounded by its ends. -/
theorem ends_only (stats : Statistics) (width : Binary64) :
    stats.ends .only width = stats.ends .exclude width := by
  obtain ⟨mean, stddev⟩ := stats
  cases mean <;> rfl

theorem ends_eq (stats : Statistics) (mode : OutlierMode) (width : Binary64) :
    stats.ends mode width = [] ∨
      ∃ low high, stats.ends mode width = [.float low, .float high] := by
  obtain ⟨mean, stddev⟩ := stats
  cases mode with
  | «include» => exact .inl rfl
  | exclude | only =>
    cases mean with
    | none => exact .inl rfl
    | some mean => exact .inr ⟨_, _, rfl⟩

/-- A number is on one side of the band, and not on both. -/
theorem keeps_exclude_iff (hstats : stats.IsFinite) (hwidth : width.isFinite = true)
    (hrow : row.find? column = some u) (hu : u.quantity? = some q) (hq : q ≠ .undefined) :
    stats.Keeps .exclude width column row ↔ ¬stats.Keeps .only width column row := by
  obtain ⟨mean, stddev⟩ := stats
  cases mean with
  | none => simp [Keeps]
  | some mean =>
    have hends := isNaN_band (hstats.mean _ rfl) hstats.stddev hwidth
    obtain ⟨a, ha⟩ := Quantity.exists_extended hq
    obtain ⟨low, hlow⟩ := Quantity.exists_extended (Binary64.quantity_ne_undefined hends.1)
    obtain ⟨high, hhigh⟩ := Quantity.exists_extended (Binary64.quantity_ne_undefined hends.2)
    have hlower (op : Operator) := Record.satisfies_float_iff hrow hu ha hlow op
    have hupper (op : Operator) := Record.satisfies_float_iff hrow hu ha hhigh op
    rw [keeps_exclude_some, keeps_only_some, hlower, hupper, hlower, hupper]
    simp [Operator.Relates]

/-- A row that a band keeps is kept by a wider one. -/
theorem keeps_exclude_mono (hstats : stats.IsFinite)
    (hnonneg : ∀ x ∈ stats.stddev, Binary64.zero.atMost x = true) (hwidth : width.isFinite = true)
    (hwidth' : width'.isFinite = true) (hle : width.rank ≤ width'.rank)
    (h : stats.Keeps .exclude width column row) : stats.Keeps .exclude width' column row := by
  obtain ⟨mean, stddev⟩ := stats
  cases mean with
  | none => trivial
  | some mean =>
    obtain ⟨hleft, hright⟩ := keeps_exclude_some.mp h
    have hmean := hstats.mean _ rfl
    have hends := isNaN_band hmean hstats.stddev hwidth
    have hends' := isNaN_band hmean hstats.stddev hwidth'
    have hrank := rank_band_mono hmean hstats.stddev hnonneg hwidth hwidth' hle
    obtain ⟨u, q, hrow, hu, hq⟩ := hleft.exists_quantity
    obtain ⟨a, ha⟩ := Quantity.exists_extended hq
    obtain ⟨low, hlow⟩ := Quantity.exists_extended (Binary64.quantity_ne_undefined hends.1)
    obtain ⟨high, hhigh⟩ := Quantity.exists_extended (Binary64.quantity_ne_undefined hends.2)
    obtain ⟨low', hlow'⟩ := Quantity.exists_extended (Binary64.quantity_ne_undefined hends'.1)
    obtain ⟨high', hhigh'⟩ := Quantity.exists_extended (Binary64.quantity_ne_undefined hends'.2)
    rw [Record.satisfies_float_iff hrow hu ha hlow] at hleft
    rw [Record.satisfies_float_iff hrow hu ha hhigh] at hright
    refine keeps_exclude_some.mpr ⟨?_, ?_⟩
    · rw [Record.satisfies_float_iff hrow hu ha hlow']
      exact ((Binary64.extended_le_iff hlow' hlow).mpr hrank.1).trans hleft
    · rw [Record.satisfies_float_iff hrow hu ha hhigh']
      exact hright.trans ((Binary64.extended_le_iff hhigh hhigh').mpr hrank.2)

end Statistics

/-! ## Conditions -/

/-- The text of a condition selects what the condition says. -/
theorem Predicate.Says.selects_iff {p : Option Predicate} {missing : Prop} {values : List Value}
    {holds : Record → Prop} (h : Says p missing values holds) (before : List Value) :
    Selects before row p ↔ holds row := by
  rw [← h.holds_iff]
  cases p with
  | none => simp [Selects]
  | some p => simpa using selects_some_iff (h.formed p (by simp))

namespace Statistics

variable {stats : Statistics} {width : Binary64}

/-- A mode that leaves rows out makes a condition exactly on the columns that are accepted. -/
theorem exists_predicate_iff {mode : OutlierMode} (hmode : mode ≠ .include) :
    (∃ p, stats.predicate (.text column) mode width = .ok p) ↔ Name.isProperty column = true := by
  rw [predicate, if_neg hmode]
  refine ⟨?_, fun hcolumn => ?_⟩
  · rintro ⟨p, hp⟩
    obtain ⟨name, hname, -⟩ := Outcome.map_eq_ok hp
    obtain ⟨htext, hproperty⟩ := Name.property_eq_ok hname
    cases htext
    exact hproperty
  · rw [Name.property_of_isProperty "column" hcolumn]
    exact ⟨_, rfl⟩

/-- Leaving the outliers out and asking for them only are conditions of the same columns, bind the
same ends of the band, and select every row with a number in the column, one or the other. A wider
band leaves fewer rows out. -/
theorem splits_by_band (stats : Statistics) (hstats : stats.IsFinite) (column : String)
    (width : Binary64) (hwidth : width.isFinite = true) :
    ((∃ inner, stats.predicate (.text column) .exclude width = .ok inner) ↔
        Name.isProperty column = true) ∧
      ((∃ outer, stats.predicate (.text column) .only width = .ok outer) ↔
        Name.isProperty column = true) ∧
      ∀ inner, stats.predicate (.text column) .exclude width = .ok inner →
        (∀ outer, stats.predicate (.text column) .only width = .ok outer →
          inner.toList.flatMap (·.values) = outer.toList.flatMap (·.values) ∧
          (inner.toList.flatMap (·.values) = [] ∨
            ∃ low high, inner.toList.flatMap (·.values) = [.float low, .float high]) ∧
          ∀ before row u q, Record.find? row column = some u → u.quantity? = some q →
            q ≠ .undefined →
            (Predicate.Selects before row inner ↔ ¬Predicate.Selects before row outer)) ∧
        ∀ width' inner', width'.isFinite = true →
          (∀ x ∈ stats.stddev, Binary64.zero.atMost x = true) → width.atMost width' = true →
          stats.predicate (.text column) .exclude width' = .ok inner' →
          ∀ before row, Predicate.Selects before row inner →
            Predicate.Selects before row inner' := by
  refine ⟨exists_predicate_iff (by decide), exists_predicate_iff (by decide),
    fun inner hinner => ?_⟩
  have hinside := predicate_eq_ok hinner
  refine ⟨fun outer houter => ?_, fun width' inner' hwidth' hnonneg hle hinner' before row h => ?_⟩
  · have houtside := predicate_eq_ok houter
    refine ⟨?_, ?_, fun before row u q hrow hu hq => ?_⟩
    · rw [hinside.values_eq, houtside.values_eq, ends_only]
    · rw [hinside.values_eq]
      exact ends_eq stats .exclude width
    · rw [hinside.selects_iff before, houtside.selects_iff before]
      exact keeps_exclude_iff hstats hwidth hrow hu hq
  · have hrank := Binary64.rank_le_of_atMost hle
    rw [hinside.selects_iff before] at h
    rw [(predicate_eq_ok hinner').selects_iff before]
    exact keeps_exclude_mono hstats hnonneg hwidth hwidth' hrank h

/-- Fifteen, give or take five. -/
def aroundFifteen : Statistics := ⟨some (.ofInt 15), some (.ofInt 5)⟩

/-- Thirty lies outside of two deviations around fifteen, and on the end of three. -/
theorem splits_by_band_aroundFifteen :
    aroundFifteen.IsFinite ∧ (Binary64.ofInt 2).isFinite = true ∧
      ∃ inner outer inner',
        aroundFifteen.predicate (.text "voltage") .exclude (.ofInt 2) = .ok inner ∧
        aroundFifteen.predicate (.text "voltage") .only (.ofInt 2) = .ok outer ∧
        aroundFifteen.predicate (.text "voltage") .exclude (.ofInt 3) = .ok inner' ∧
        (Predicate.Selects [] [("voltage", .int 30)] inner ↔
          ¬Predicate.Selects [] [("voltage", .int 30)] outer) ∧
        (Predicate.Selects [] [("voltage", .int 30)] inner →
          Predicate.Selects [] [("voltage", .int 30)] inner') := by
  have hstats : aroundFifteen.IsFinite := by
    constructor
    · rintro x ⟨⟩
      decide +kernel
    · rintro x ⟨⟩
      decide +kernel
  have htwo : (Binary64.ofInt 2).isFinite = true := Binary64.isFinite_ofInt (by decide)
  have hthree : (Binary64.ofInt 3).isFinite = true := Binary64.isFinite_ofInt (by decide)
  obtain ⟨hinner, houter, hrows⟩ := splits_by_band _ hstats "voltage" _ htwo
  obtain ⟨hinner', -⟩ := splits_by_band _ hstats "voltage" _ hthree
  obtain ⟨inner, hinner⟩ := hinner.mpr (by decide)
  obtain ⟨outer, houter⟩ := houter.mpr (by decide)
  obtain ⟨inner', hinner'⟩ := hinner'.mpr (by decide)
  obtain ⟨hsplit, hwider⟩ := hrows inner hinner
  refine ⟨hstats, htwo, inner, outer, inner', hinner, houter, hinner', ?_, ?_⟩
  · exact (hsplit outer houter).2.2 [] _ (.int 30) _ rfl rfl nofun
  · refine hwider _ inner' hthree ?_ (by decide +kernel) hinner' [] _
    rintro x ⟨⟩
    decide +kernel

end Statistics
end EventQuery
