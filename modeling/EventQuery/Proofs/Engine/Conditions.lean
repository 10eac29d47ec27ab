import EventQuery.Engine
import EventQuery.Proofs.Run.Exchange
import EventQuery.Proofs.Statement.Layout

/-!
# EventQuery.Proofs.Engine.Conditions

The conditions under which a request reads rows: its window, the band of its outliers and its
filters. Each of the three is shown with the values that it binds and with what it says of a row
(`Predicate.Says`), and `compile_endsIn_ok` puts them together: a statement comes from the three in
this order, and in no other way.
-/

namespace EventQuery

/-- Whether a row is on the side of the band that a mode keeps. Without a mean nothing is an
outlier. -/
def Statistics.Keeps (stats : Statistics) (mode : OutlierMode) (width : Binary64)
    (column : String) (row : Record) : Prop :=
  match mode, stats.mean with
  | .include, _ => True
  | .exclude, none => True
  | .only, none => False
  | .exclude, some mean =>
    let (low, high) := band mean stats.stddev width
    row.Satisfies column .gte (.float low) ∧ row.Satisfies column .lte (.float high)
  | .only, some mean =>
    let (low, high) := band mean stats.stddev width
    row.Satisfies column .lt (.float low) ∨ row.Satisfies column .gt (.float high)

/-- The ends of the band, if a mode and a mean set one. -/
def Statistics.ends (stats : Statistics) (mode : OutlierMode) (width : Binary64) : List Value :=
  match mode, stats.mean with
  | .include, _ | _, none => []
  | _, some mean =>
    let (low, high) := band mean stats.stddev width
    [.float low, .float high]

/-- Whether a mode leaves all rows in. -/
def Statistics.KeepsAll (stats : Statistics) (mode : OutlierMode) : Prop :=
  mode = .include ∨ mode = .exclude ∧ stats.mean = none

namespace Predicate

/-- What a part of the conditions is: when it is missing, which values it binds and what it says. -/
structure Says (p : Option Predicate) (missing : Prop) (values : List Value)
    (holds : Record → Prop) : Prop where
  formed : ∀ q ∈ p.toList, q.Formed
  eq_none_iff : p = none ↔ missing
  values_eq : p.toList.flatMap (·.values) = values
  holds_iff : ∀ row, (∀ q ∈ p.toList, q.Holds row) ↔ holds row

theorem says_none {missing : Prop} (h : missing) : Says none missing [] fun _ => True :=
  ⟨by simp, by simpa using h, rfl, by simp⟩

theorem says_some {p : Predicate} (h : p.Formed) {missing : Prop} (hmissing : ¬missing) :
    Says (some p) missing p.values fun row => p.Holds row :=
  ⟨by simpa using h, by simpa using hmissing, by simp, by simp⟩

theorem says_window (w : Option Window) :
    Says (w.map within) (w = none) (w.toList.flatMap fun w => [.datetime w.start, .datetime w.stop])
      fun row => ∀ x ∈ w, x.Holds row := by
  cases w with
  | none => exact ⟨by simp, by simp, rfl, by simp⟩
  | some w =>
    have hformed : (within w).Formed :=
      ⟨by simpa [columns] using Name.isProperty_timestampColumn, by simp⟩
    exact ⟨by simpa using hformed, by simp, by simp [values], by simp [Holds]⟩

end Predicate

namespace Statistics

theorem predicate_eq_ok {stats : Statistics} {property : String} {mode : OutlierMode}
    {width : Binary64} {p : Option Predicate}
    (h : stats.predicate (.text property) mode width = .ok p) :
    Predicate.Says p (stats.KeepsAll mode) (stats.ends mode width)
      (stats.Keeps mode width property) := by
  unfold predicate at h
  split at h
  · rename_i hmode
    cases h
    subst hmode
    exact Predicate.says_none (.inl rfl)
  · rename_i hmode
    obtain ⟨column, hcolumn, rfl⟩ := Outcome.map_eq_ok h
    obtain ⟨htext, hproperty⟩ := Name.property_eq_ok hcolumn
    cases htext
    have hcolumns : ∀ c ∈ [property], Name.isProperty c = true := by simpa using hproperty
    obtain ⟨mean, stddev⟩ := stats
    cases mode with
    | «include» => exact absurd rfl hmode
    | exclude =>
      cases mean with
      | none => exact Predicate.says_none (.inr ⟨rfl, rfl⟩)
      | some mean =>
        refine Predicate.says_some ⟨?_, by simp⟩ (by simp [KeepsAll])
        exact hcolumns
    | only =>
      cases mean with
      | none =>
        exact Predicate.says_some ⟨by simp [Predicate.columns], by simp⟩ (by simp [KeepsAll])
      | some mean =>
        refine Predicate.says_some ⟨?_, by simp⟩ (by simp [KeepsAll])
        exact hcolumns

end Statistics

namespace Filter

theorem checkColumns_eq_ok {filters : List Filter} (h : checkColumns filters = .ok ()) :
    ∀ f ∈ filters, Name.isProperty f.property = true := by
  induction filters with
  | nil => simp
  | cons f rest ih =>
    unfold checkColumns at h
    split at h
    · cases h
    · rename_i hf
      obtain ⟨htext, hproperty⟩ := Name.property_eq_ok hf
      cases htext
      rw [List.forall_mem_cons]
      exact ⟨hproperty, ih h⟩

theorem predicate_eq_ok {filters : List Filter} {p : Option Predicate}
    (h : predicate filters = .ok p) :
    Predicate.Says p (filters = []) (filters.map (·.value))
      fun row => ∀ f ∈ filters, row.Satisfies f.property f.operator f.value := by
  unfold predicate at h
  split at h
  · rename_i hempty
    cases h
    rw [List.isEmpty_iff.mp hempty]
    exact ⟨by simp, by simp, rfl, by simp⟩
  · rename_i hempty
    rw [List.isEmpty_iff] at hempty
    obtain ⟨_, hcolumns, rfl⟩ := Outcome.map_eq_ok h
    refine Predicate.says_some ⟨?_, ?_⟩ hempty
    · simpa [Predicate.columns] using checkColumns_eq_ok hcolumns
    · rintro hnil
      cases hnil
      exact hempty rfl

theorem checkColumns_of_isProperty {filters : List Filter}
    (h : ∀ f ∈ filters, Name.isProperty f.property = true) : checkColumns filters = .ok () := by
  induction filters with
  | nil => rfl
  | cons f rest ih =>
    rw [List.forall_mem_cons] at h
    rw [checkColumns, Name.property_of_isProperty "column" h.1, ih h.2]

theorem predicate_of_isProperty {filters : List Filter}
    (h : ∀ f ∈ filters, Name.isProperty f.property = true) : ∃ p, predicate filters = .ok p := by
  unfold predicate
  split
  · exact ⟨_, rfl⟩
  · rw [checkColumns_of_isProperty h]
    exact ⟨_, rfl⟩

end Filter

namespace Engine

/-- The statistics that a request read are those of its property. -/
theorem outlierStatistics_property {s : Settings} {r : Request} {xs : List Exchange}
    {stats : Option (String × Statistics)} (h : (outlierStatistics s r).EndsIn xs (.ok stats)) :
    stats.map (·.1) = bandProperty r := by
  unfold outlierStatistics at h
  cases hproperty : bandProperty r with
  | none =>
    rw [hproperty] at h
    cases h
    rfl
  | some property =>
    rw [hproperty] at h
    obtain ⟨found, _, _, _, _, hdone⟩ := Run.endsIn_bind_ok.mp h
    cases hdone
    rfl

/-- Whether a row is on the side of the band that a request keeps. -/
def InBand (s : Settings) (r : Request) (stats : Option (String × Statistics)) (row : Record) :
    Prop :=
  ∀ found ∈ stats, found.2.Keeps r.outliers s.outlierWidth found.1 row

theorem band_eq_ok {s : Settings} {r : Request} {stats : Option (String × Statistics)}
    {p : Option Predicate} (h : band s r stats = .ok p) :
    Predicate.Says p (∀ found ∈ stats, found.2.KeepsAll r.outliers)
      (stats.toList.flatMap fun found => found.2.ends r.outliers s.outlierWidth)
      (InBand s r stats) := by
  cases stats with
  | none =>
    cases h
    exact ⟨by simp, by simp, rfl, by simp [InBand]⟩
  | some found =>
    have hin : InBand s r (some found) = found.2.Keeps r.outliers s.outlierWidth found.1 := by
      funext row
      simp [InBand]
    rw [hin]
    simpa using Statistics.predicate_eq_ok h

/-- The values that a window, a band and filters bind, in this order. -/
def boundValues (s : Settings) (r : Request) (window : Option Window)
    (stats : Option (String × Statistics)) : List Value :=
  (window.toList.flatMap fun w => [.datetime w.start, .datetime w.stop])
    ++ (stats.toList.flatMap fun found => found.2.ends r.outliers s.outlierWidth)
    ++ r.filters.map (·.value)

theorem assemble_parts {s : Settings} {r : Request} {window : Option Window}
    {stats : Option (String × Statistics)} {st : Statement}
    (h : assemble s r window stats = .ok st) :
    ∃ b f, band s r stats = .ok b ∧ Filter.predicate r.filters = .ok f ∧
      Statement.ofRequest r ((window.map Predicate.within).toList ++ b.toList ++ f.toList)
        = .ok st := by
  unfold assemble at h
  split at h
  · cases h
  · rename_i b hb
    split at h
    · cases h
    · rename_i f hf
      exact ⟨b, f, hb, hf, h⟩

theorem assemble_eq_ok {s : Settings} {r : Request} {window : Option Window}
    {stats : Option (String × Statistics)} {st : Statement}
    (h : assemble s r window stats = .ok st) :
    ∃ ps, Statement.ofRequest r ps = .ok st ∧ (∀ p ∈ ps, p.Formed) ∧
      ps.flatMap (·.values) = boundValues s r window stats ∧
      (ps = [] ↔ window = none ∧ (∀ found ∈ stats, found.2.KeepsAll r.outliers) ∧
        r.filters = []) ∧
      ∀ row, (∀ p ∈ ps, p.Holds row) ↔
        (∀ w ∈ window, w.Holds row) ∧ InBand s r stats row ∧
          ∀ f ∈ r.filters, row.Satisfies f.property f.operator f.value := by
  obtain ⟨b, f, hb, hf, hst⟩ := assemble_parts h
  have hwindow := Predicate.says_window window
  have hband := band_eq_ok hb
  have hfilters := Filter.predicate_eq_ok hf
  refine ⟨_, hst, ?_, ?_, ?_, fun row => ?_⟩
  · rw [List.forall_mem_append, List.forall_mem_append]
    exact ⟨⟨hwindow.formed, hband.formed⟩, hfilters.formed⟩
  · rw [List.flatMap_append, List.flatMap_append, hwindow.values_eq, hband.values_eq,
      hfilters.values_eq, boundValues]
  · rw [List.append_eq_nil_iff, List.append_eq_nil_iff, Option.toList_eq_nil_iff,
      Option.toList_eq_nil_iff, Option.toList_eq_nil_iff, hwindow.eq_none_iff,
      hband.eq_none_iff, hfilters.eq_none_iff, and_assoc]
  · rw [List.forall_mem_append, List.forall_mem_append, hwindow.holds_iff, hband.holds_iff,
      hfilters.holds_iff, and_assoc]

theorem compile_endsIn_ok {s : Settings} {r : Request} {now : DateTime} {xs : List Exchange}
    {st : Statement} :
    (compile s r now).EndsIn xs (.ok st) ↔
      ∃ window stats, Timeframe.resolve (.ofText? r.timeframe) now = .ok window ∧
        (outlierStatistics s r).EndsIn xs (.ok stats) ∧ assemble s r window stats = .ok st := by
  constructor
  · intro h
    obtain ⟨window, _, _, rfl, hwindow, hrest⟩ := Run.endsIn_bind_ok.mp h
    obtain ⟨stats, _, _, rfl, hstats, hassemble⟩ := Run.endsIn_bind_ok.mp hrest
    obtain ⟨rfl, hresolve⟩ := Run.endsIn_ofOutcome.mp hwindow
    obtain ⟨rfl, hst⟩ := Run.endsIn_ofOutcome.mp hassemble
    rw [List.nil_append, List.append_nil]
    exact ⟨window, stats, hresolve.symm, hstats, hst.symm⟩
  · rintro ⟨window, stats, hwindow, hstats, hst⟩
    refine Run.endsIn_bind_ok.mpr ⟨window, [], xs, rfl, ?_, ?_⟩
    · exact Run.endsIn_ofOutcome.mpr ⟨rfl, hwindow.symm⟩
    · refine Run.endsIn_bind_ok.mpr ⟨stats, xs, [], (List.append_nil xs).symm, hstats, ?_⟩
      exact Run.endsIn_ofOutcome.mpr ⟨rfl, hst.symm⟩

end Engine
end EventQuery
