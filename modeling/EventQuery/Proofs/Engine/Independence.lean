import EventQuery.Proofs.Engine.Compile

/-!
# EventQuery.Proofs.Engine.Independence

The text of a statement does not depend on values. Two requests of the same shape, which may differ
in the values of their filters, in their timeframes, ranks and row caps, compile to the same text,
under any settings and with any statistics, as long as both have a mean or neither does
(`compile_hides_values`). What stands in double quotes in that text has passed the allow-list,
whatever the texts of the request hold.
-/

namespace EventQuery

/-- The family of a value that is bound with a cast; none for values without one. -/
def Value.family : Value → Option ColumnKind
  | .datetime _ => some .timestamp
  | .float _ => some .number
  | _ => none

structure Filter.SameShape (f g : Filter) : Prop where
  property_eq : f.property = g.property
  operator_eq : f.operator = g.operator
  family_eq : f.value.family = g.value.family

/-- Two requests that differ in values alone. -/
structure Request.SameShape (r r' : Request) : Prop where
  archetype_eq : r.archetype = r'.archetype
  project_eq : r.project = r'.project
  collection_eq : r.collection = r'.collection
  target_eq : r.target = r'.target
  targets_eq : r.targets = r'.targets
  groupBy_eq : r.groupBy = r'.groupBy
  interval_eq : r.interval = r'.interval
  outliers_eq : r.outliers = r'.outliers
  outliersIn_eq : r.outliersIn = r'.outliersIn
  filters : List.Forall₂ Filter.SameShape r.filters r'.filters
  timeframe_isSome_eq : (present r.timeframe).isSome = (present r'.timeframe).isSome

theorem Request.SameShape.refl (r : Request) : r.SameShape r where
  archetype_eq := rfl
  project_eq := rfl
  collection_eq := rfl
  target_eq := rfl
  targets_eq := rfl
  groupBy_eq := rfl
  interval_eq := rfl
  outliers_eq := rfl
  outliersIn_eq := rfl
  filters := List.forall₂_same.mpr fun _ _ => ⟨rfl, rfl, rfl⟩
  timeframe_isSome_eq := rfl

namespace Predicate

/-- Two conditions with the same text, wherever their values are bound. -/
structure SameText (p q : Predicate) : Prop where
  text_eq : ∀ bound, p.text bound = q.text bound
  length_eq : p.values.length = q.values.length

variable {ps qs : List Predicate}

theorem texts_eq (h : List.Forall₂ SameText ps qs) : ∀ bound, texts bound ps = texts bound qs := by
  induction h with
  | nil => exact fun _ => rfl
  | cons hp _ ih =>
    intro bound
    rw [texts, texts, hp.text_eq, hp.length_eq, ih]

theorem length_values_eq (h : List.Forall₂ SameText ps qs) :
    (ps.flatMap (·.values)).length = (qs.flatMap (·.values)).length := by
  induction h with
  | nil => rfl
  | cons hp _ ih =>
    rw [List.flatMap_cons, List.flatMap_cons, List.length_append, List.length_append, hp.length_eq,
      ih]

/-! ## The three parts of the conditions -/

theorem sameText_within (w w' : Window) : SameText (within w) (within w') := ⟨fun _ => rfl, rfl⟩

theorem cast_eq {v v' : Value} (h : v.family = v'.family) : v.cast = v'.cast := by
  cases v <;> cases v' <;> first | rfl | cases h

theorem comparisonTexts_eq_of_sameShape {filters filters' : List Filter}
    (h : List.Forall₂ Filter.SameShape filters filters') :
    ∀ place, comparisonTexts place filters = comparisonTexts place filters' := by
  induction h with
  | nil => exact fun _ => rfl
  | cons hf _ ih =>
    intro place
    rw [comparisonTexts, comparisonTexts, comparisonText, comparisonText, hf.property_eq,
      hf.operator_eq, cast_eq hf.family_eq, ih]

theorem sameText_comparisons {filters filters' : List Filter}
    (h : List.Forall₂ Filter.SameShape filters filters') :
    SameText (comparisons filters) (comparisons filters') := by
  refine ⟨fun bound => ?_, ?_⟩
  · rw [text, text, comparisonTexts_eq_of_sameShape h]
  · rw [values, values, List.length_map, List.length_map, h.length_eq]

end Predicate

/-- Bands of one property under one mode are set or not, and read the same, when both have a mean
or neither does. -/
theorem Statistics.predicate_sameText {stats stats' : Statistics} {property : String}
    {mode : OutlierMode} {width width' : Binary64} {p p' : Option Predicate}
    (hmean : stats.mean.isSome = stats'.mean.isSome)
    (h : stats.predicate (.text property) mode width = .ok p)
    (h' : stats'.predicate (.text property) mode width' = .ok p') :
    List.Forall₂ Predicate.SameText p.toList p'.toList := by
  unfold predicate at h h'
  by_cases hmode : mode = .include
  · rw [if_pos hmode] at h h'
    cases h
    cases h'
    exact .nil
  · rw [if_neg hmode] at h h'
    obtain ⟨column, hcolumn, rfl⟩ := Outcome.map_eq_ok h
    obtain ⟨column', hcolumn', rfl⟩ := Outcome.map_eq_ok h'
    cases hcolumn.symm.trans hcolumn'
    obtain ⟨mean, stddev⟩ := stats
    obtain ⟨mean', stddev'⟩ := stats'
    cases mean with
    | none =>
      cases mean' with
      | none =>
        -- both are missing, or both select nothing
        dsimp only
        split
        · exact .nil
        · exact .cons ⟨fun _ => rfl, rfl⟩ .nil
      | some mean' => cases hmean
    | some mean =>
      cases mean' with
      | none => cases hmean
      | some mean' =>
        dsimp only
        split
        · exact .cons ⟨fun _ => rfl, rfl⟩ .nil
        · exact .cons ⟨fun _ => rfl, rfl⟩ .nil

theorem Filter.predicate_sameText {filters filters' : List Filter} {p p' : Option Predicate}
    (hfilters : List.Forall₂ Filter.SameShape filters filters')
    (h : predicate filters = .ok p) (h' : predicate filters' = .ok p') :
    List.Forall₂ Predicate.SameText p.toList p'.toList := by
  unfold predicate at h h'
  cases hfilters with
  | nil =>
    cases h
    cases h'
    exact .nil
  | cons hf hrest =>
    rw [if_neg (by simp)] at h h'
    obtain ⟨_, _, rfl⟩ := Outcome.map_eq_ok h
    obtain ⟨_, _, rfl⟩ := Outcome.map_eq_ok h'
    exact .cons (Predicate.sameText_comparisons (.cons hf hrest)) .nil

theorem Timeframe.resolve_isSome {timeframe : Option String} {now : DateTime}
    {window : Option Window} (h : resolve (.ofText? timeframe) now = .ok window) :
    window.isSome = (present timeframe).isSome := by
  cases timeframe with
  | none =>
    cases h
    rfl
  | some text =>
    simp only [Value.ofText?, resolve] at h
    split at h
    · rename_i hempty
      cases h
      simp [present, hempty]
    · rename_i hempty
      obtain ⟨_, _, rfl⟩ := Outcome.map_eq_ok h
      simp [present, hempty]

namespace Statement

/-! ## Two statements -/

theorem selection_eq {r r' : Request} (h : r.SameShape r') : selection r = selection r' := by
  have haggregate : aggregateText r = aggregateText r' := by
    rw [aggregateText, aggregateText, h.archetype_eq, h.target_eq]
  have haggregates : aggregateSelection r = aggregateSelection r' := by
    rw [aggregateSelection, aggregateSelection, haggregate, h.groupBy_eq]
  have hraw : rawSelection r = rawSelection r' := by
    rw [rawSelection, rawSelection, h.interval_eq, h.groupBy_eq, h.target_eq]
  have hextraction : extractionSelection r = extractionSelection r' := by
    rw [extractionSelection, extractionSelection, h.targets_eq]
  rw [selection, selection, h.archetype_eq, h.interval_eq, haggregates, hraw, hextraction]

theorem sql_ofRequest_eq {r r' : Request} {ps ps' : List Predicate} {st st' : Statement}
    (hr : r.SameShape r') (hps : List.Forall₂ Predicate.SameText ps ps')
    (h : ofRequest r ps = .ok st) (h' : ofRequest r' ps' = .ok st') : st.sql = st'.sql := by
  obtain ⟨table, x, htable, hx, rfl⟩ := ofRequest_eq_ok h
  obtain ⟨table', x', htable', hx', rfl⟩ := ofRequest_eq_ok h'
  rw [← hr.project_eq, ← hr.collection_eq] at htable'
  rw [← selection_eq hr] at hx'
  cases htable.symm.trans htable'
  cases hx.symm.trans hx'
  rw [Predicate.texts_eq hps, Predicate.length_values_eq hps]

end Statement

namespace Engine

theorem bandProperty_eq {r r' : Request} (h : r.SameShape r') :
    bandProperty r = bandProperty r' := by
  rw [bandProperty, bandProperty, h.outliers_eq, h.outliersIn_eq]

theorem band_sameText {s s' : Settings} {r r' : Request}
    {stats stats' : Option (String × Statistics)} {p p' : Option Predicate}
    (hr : r.SameShape r') (hproperty : stats.map (·.1) = stats'.map (·.1))
    (hmean : stats.map (·.2.mean.isSome) = stats'.map (·.2.mean.isSome))
    (h : band s r stats = .ok p) (h' : band s' r' stats' = .ok p') :
    List.Forall₂ Predicate.SameText p.toList p'.toList := by
  cases stats with
  | none =>
    cases stats' with
    | none =>
      cases h
      cases h'
      exact .nil
    | some found' => cases hproperty
  | some found =>
    cases stats' with
    | none => cases hproperty
    | some found' =>
      obtain ⟨property, stats⟩ := found
      obtain ⟨property', stats'⟩ := found'
      injection hproperty with hproperty
      injection hmean with hmean
      dsimp only at hproperty hmean
      subst hproperty
      simp only [band, ← hr.outliers_eq] at h h'
      exact Statistics.predicate_sameText hmean h h'

theorem sql_assemble_eq {s s' : Settings} {r r' : Request} {window window' : Option Window}
    {stats stats' : Option (String × Statistics)} {st st' : Statement} (hr : r.SameShape r')
    (hwindow : window.isSome = window'.isSome) (hproperty : stats.map (·.1) = stats'.map (·.1))
    (hmean : stats.map (·.2.mean.isSome) = stats'.map (·.2.mean.isSome))
    (h : assemble s r window stats = .ok st) (h' : assemble s' r' window' stats' = .ok st') :
    st.sql = st'.sql := by
  have hwithin : List.Forall₂ Predicate.SameText (window.map Predicate.within).toList
      (window'.map Predicate.within).toList := by
    cases window <;> cases window' <;> cases hwindow
    · exact .nil
    · exact .cons (Predicate.sameText_within _ _) .nil
  obtain ⟨b, f, hb, hf, hst⟩ := assemble_parts h
  obtain ⟨b', f', hb', hf', hst'⟩ := assemble_parts h'
  have hband := band_sameText hr hproperty hmean hb hb'
  have hfilters := Filter.predicate_sameText hr.filters hf hf'
  exact Statement.sql_ofRequest_eq hr (List.rel_append (List.rel_append hwithin hband) hfilters)
    hst hst'

variable {s : Settings} {r : Request} {now : DateTime} {xs : List Exchange} {st : Statement}

theorem compile_hides_values (h : (compile s r now).EndsIn xs (.ok st)) :
    (∀ t ∈ Token.ofText st.sql, t.IsSafe) ∧
      ∀ (s' : Settings) (r' : Request) (now' : DateTime) (xs' : List Exchange) (st' : Statement),
        (compile s' r' now').EndsIn xs' (.ok st') → r.SameShape r' →
        (∀ stats stats', (outlierStatistics s r).EndsIn xs (.ok stats) →
          (outlierStatistics s' r').EndsIn xs' (.ok stats') →
          stats.map (·.2.mean.isSome) = stats'.map (·.2.mean.isSome)) →
        st.sql = st'.sql := by
  obtain ⟨window, stats, hwindow, hstats, hassemble⟩ := compile_endsIn_ok.mp h
  constructor
  · obtain ⟨ps, hst, hformed, _⟩ := assemble_eq_ok hassemble
    exact Statement.isSafe_ofRequest hformed hst
  · intro s' r' now' xs' st' h' hr hmean
    obtain ⟨window', stats', hwindow', hstats', hassemble'⟩ := compile_endsIn_ok.mp h'
    have hisSome : window.isSome = window'.isSome := by
      rw [Timeframe.resolve_isSome hwindow, Timeframe.resolve_isSome hwindow',
        hr.timeframe_isSome_eq]
    have hproperty : stats.map (·.1) = stats'.map (·.1) := by
      rw [outlierStatistics_property hstats, outlierStatistics_property hstats', bandProperty_eq hr]
    exact sql_assemble_eq hr hisSome hproperty (hmean stats stats' hstats hstats') hassemble
      hassemble'

/-- The same question about other values: twenty volts, the hour before, and half the rows. -/
def otherVoltages : Request :=
  { typicalVoltages with
    filters := [⟨"voltage", .gte, .int 20⟩], timeframe := some "previous_1_hours", latest := 25 }

theorem sameShape_otherVoltages : typicalVoltages.SameShape otherVoltages :=
  ⟨rfl, rfl, rfl, rfl, rfl, rfl, rfl, rfl, rfl, .cons ⟨rfl, rfl, rfl⟩ .nil, rfl⟩

/-- A band without width. -/
def narrow : Settings := { patient with outlierWidth := .zero }

theorem outlierStatistics_otherVoltages :
    (outlierStatistics narrow otherVoltages).EndsIn computesZeros (.ok (some ("voltage", zeros))) :=
  .get (.statement (.set .done))

theorem compile_otherVoltages :
    ∃ st, (compile narrow otherVoltages noon).EndsIn computesZeros (.ok st) :=
  ⟨_, compile_endsIn_ok.mpr ⟨_, _, rfl, outlierStatistics_otherVoltages, rfl⟩⟩

theorem compile_hides_otherVoltages :
    ∃ st st', (compile patient typicalVoltages noon).EndsIn computesZeros (.ok st) ∧
      (compile narrow otherVoltages noon).EndsIn computesZeros (.ok st') ∧
      (∀ t ∈ Token.ofText st.sql, t.IsSafe) ∧ st.sql = st'.sql := by
  obtain ⟨st, h⟩ := compile_typicalVoltages
  obtain ⟨st', h'⟩ := compile_otherVoltages
  obtain ⟨hsafe, htext⟩ := compile_hides_values h
  refine ⟨st, st', h, h', hsafe, htext _ _ _ _ _ h' sameShape_otherVoltages ?_⟩
  intro stats stats' hstats hstats'
  cases hstats.deterministic outlierStatistics_typicalVoltages
  cases hstats'.deterministic outlierStatistics_otherVoltages
  rfl

end Engine
end EventQuery
