import EventQuery.Proofs.Name.Characters
import EventQuery.Proofs.Outcome
import EventQuery.Request.Gate

/-!
# EventQuery.Proofs.Request.Gate

What a request is once the gate has let it through. `request_eq_ok` takes an accepted request apart
into what each parameter was read as, and `Accepted` is what follows for its names: all of them have
passed the allow-list, whatever the parameters were.
-/

namespace EventQuery

/-- A request whose names have passed the allow-list. -/
structure Request.Accepted (r : Request) : Prop where
  collection : Name.isFlat r.collection = true
  target : ∀ t ∈ r.target, Name.isProperty t = true
  targets : ∀ t ∈ r.targets, Name.isProperty t = true
  groupBy : ∀ g ∈ r.groupBy, Name.isProperty g = true
  outliersIn : r.outliers ≠ .include → ∃ x, r.outliersIn = some x ∧ Name.isProperty x = true
  filters : ∀ f ∈ r.filters, Name.isProperty f.property = true

theorem present_of_isProperty {name : String} (h : Name.isProperty name = true) :
    present (some name) = some name := by
  refine Option.filter_eq_some_iff.mpr ⟨rfl, ?_⟩
  rw [Bool.not_eq_true', Bool.eq_false_iff]
  intro hempty
  rw [String.isEmpty_iff.mp hempty] at h
  revert h
  decide

namespace Filter

theorem isProperty_ofValue {v : Value} {f : Filter} (h : ofValue v = .ok f) :
    Name.isProperty f.property = true := by
  unfold ofValue at h
  split at h
  · split at h
    · cases h
    · rename_i property hproperty
      dsimp only at h
      split at h
      · cases h
        exact (Name.property_eq_ok hproperty).2
      · cases h
  · cases h

theorem isProperty_ofValues {vs : List Value} {fs : List Filter} (h : ofValues vs = .ok fs) :
    ∀ f ∈ fs, Name.isProperty f.property = true := by
  induction vs generalizing fs with
  | nil =>
    cases h
    simp
  | cons v rest ih =>
    unfold ofValues at h
    split at h
    · cases h
    · rename_i f hf
      split at h
      · cases h
      · rename_i fs hfs
        cases h
        exact List.forall_mem_cons.mpr ⟨isProperty_ofValue hf, ih hfs⟩

theorem isProperty_parse {raw : Value} {fs : List Filter} (h : parse raw = .ok fs) :
    ∀ f ∈ fs, Name.isProperty f.property = true := by
  unfold parse at h
  split at h
  · split at h
    · exact isProperty_ofValues h
    · cases h
      simp
  · exact isProperty_ofValues h
  · cases h
    simp

end Filter

namespace Gate

theorem isProperty_properties {what : String} {raw names : List String}
    (h : properties what raw = .ok names) : ∀ t ∈ names, Name.isProperty t = true := by
  induction raw generalizing names with
  | nil =>
    cases h
    simp
  | cons s rest ih =>
    unfold properties at h
    split at h
    · cases h
    · rename_i p hp
      split at h
      · cases h
      · rename_i ps hps
        cases h
        exact List.forall_mem_cons.mpr ⟨(Name.property_eq_ok hp).2, ih hps⟩

theorem isProperty_targets {raw : Option String} {names : List String}
    (h : targets raw = .ok names) : ∀ t ∈ names, Name.isProperty t = true := by
  unfold targets at h
  split at h
  · cases h
    simp
  · exact isProperty_properties h

theorem isProperty_optionalProperty {what : String} {raw name : Option String}
    (h : optionalProperty what raw = .ok name) : ∀ t ∈ name, Name.isProperty t = true := by
  unfold optionalProperty at h
  split at h
  · cases h
    simp
  · obtain ⟨p, hp, rfl⟩ := Outcome.map_eq_ok h
    simpa using (Name.property_eq_ok hp).2

theorem isProperty_target {a : Archetype} {raw name : Option String}
    (h : target a raw = .ok name) : ∀ t ∈ name, Name.isProperty t = true := by
  unfold target at h
  split at h
  · cases h
  · split at h
    · cases h
    · cases h
      simp
  · rename_i p hp
    cases h
    exact isProperty_optionalProperty hp

theorem isProperty_outliersIn {mode : OutlierMode} {raw name : Option String}
    (h : outliersIn mode raw = .ok name) (hmode : mode ≠ .include) :
    ∃ x, name = some x ∧ Name.isProperty x = true := by
  unfold outliersIn at h
  rw [if_neg hmode] at h
  split at h
  · cases h
  · obtain ⟨p, hp, rfl⟩ := Outcome.map_eq_ok h
    exact ⟨p, rfl, (Name.property_eq_ok hp).2⟩

variable {a : Archetype} {project : String} {p : Params} {defaultLatest : Int} {r : Request}

/-- What a parameter is read as where only an extraction, or anything but one, takes it. -/
def skipIf {α : Type} (skips : Prop) [Decidable skips] (default : α) (read : Outcome α) :
    Outcome α :=
  if skips then .ok default else read

/-- The steps of the gate, one after the other. -/
theorem request_eq :
    request a project p defaultLatest = (do
      let collection ← Name.flat "event collection" (.ofText? p.eventCollection)
      let targets ← skipIf (a ≠ .extraction) [] (targets p.targetProperty)
      let target ← skipIf (a = .extraction) none (target a p.targetProperty)
      let rank ← requestRank a p.percentile
      let mode ← outliers p.outliers
      let outliersIn ← outliersIn mode p.outliersIn
      let groupBy ← skipIf (a = .extraction) none
        (optionalProperty "group_by property" p.groupBy)
      let latest ← latest p.latest defaultLatest
      let interval ← skipIf (a = .extraction) none (interval p.interval)
      let filters ← filters p.filters
      return {
        archetype := a, project, collection, target, targets, rank, groupBy, latest, interval
        outliers := mode, outliersIn, filters
        timeframe := present p.timeframe
        byColumn := decide (a = .extraction) && flag p.concatResults }) := by
  by_cases ha : a = .extraction
  · subst ha
    rfl
  · have hne : a ≠ .extraction := ha
    simp only [request, skipIf, if_neg ha, if_pos hne]

/-- What each parameter of an accepted request was read as. -/
theorem request_eq_ok (h : request a project p defaultLatest = .ok r) :
    r.archetype = a ∧ r.project = project ∧
      Name.flat "event collection" (.ofText? p.eventCollection) = .ok r.collection ∧
      skipIf (a ≠ .extraction) [] (targets p.targetProperty) = .ok r.targets ∧
      skipIf (a = .extraction) none (target a p.targetProperty) = .ok r.target ∧
      requestRank a p.percentile = .ok r.rank ∧ outliers p.outliers = .ok r.outliers ∧
      outliersIn r.outliers p.outliersIn = .ok r.outliersIn ∧
      skipIf (a = .extraction) none (optionalProperty "group_by property" p.groupBy)
        = .ok r.groupBy ∧
      latest p.latest defaultLatest = .ok r.latest ∧
      skipIf (a = .extraction) none (interval p.interval) = .ok r.interval ∧
      filters p.filters = .ok r.filters ∧ r.timeframe = present p.timeframe ∧
      r.byColumn = (decide (a = .extraction) && flag p.concatResults) := by
  rw [request_eq] at h
  obtain ⟨collection, hcollection, h⟩ := Outcome.bind_eq_ok h
  obtain ⟨targets, htargets, h⟩ := Outcome.bind_eq_ok h
  obtain ⟨target, htarget, h⟩ := Outcome.bind_eq_ok h
  obtain ⟨rank, hrank, h⟩ := Outcome.bind_eq_ok h
  obtain ⟨mode, hmode, h⟩ := Outcome.bind_eq_ok h
  obtain ⟨outliersIn, houtliersIn, h⟩ := Outcome.bind_eq_ok h
  obtain ⟨groupBy, hgroupBy, h⟩ := Outcome.bind_eq_ok h
  obtain ⟨latest, hlatest, h⟩ := Outcome.bind_eq_ok h
  obtain ⟨interval, hinterval, h⟩ := Outcome.bind_eq_ok h
  obtain ⟨filters, hfilters, h⟩ := Outcome.bind_eq_ok h
  cases h
  exact ⟨rfl, rfl, hcollection, htargets, htarget, hrank, hmode, houtliersIn, hgroupBy, hlatest,
    hinterval, hfilters, rfl, rfl⟩

theorem skipIf_eq_ok {α : Type} {skips : Prop} [Decidable skips] {default x : α} {read : Outcome α}
    (h : skipIf skips default read = .ok x) : x = default ∨ read = .ok x := by
  unfold skipIf at h
  split at h
  · cases h
    exact .inl rfl
  · exact .inr h

theorem accepted_of_request (h : request a project p defaultLatest = .ok r) : r.Accepted := by
  obtain ⟨_, _, hcollection, htargets, htarget, _, _, houtliersIn, hgroupBy, _, _, hfilters, _⟩ :=
    request_eq_ok h
  refine ⟨(Name.flat_eq_ok hcollection).2, ?_, ?_, ?_, isProperty_outliersIn houtliersIn,
    Filter.isProperty_parse hfilters⟩
  · rcases skipIf_eq_ok htarget with hnone | htarget
    · simp [hnone]
    · exact isProperty_target htarget
  · rcases skipIf_eq_ok htargets with hnil | htargets
    · simp [hnil]
    · exact isProperty_targets htargets
  · rcases skipIf_eq_ok hgroupBy with hnone | hgroupBy
    · simp [hnone]
    · exact isProperty_optionalProperty hgroupBy

end Gate
end EventQuery
