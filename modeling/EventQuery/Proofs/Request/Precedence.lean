import EventQuery.Proofs.Failure.Request

/-!
# EventQuery.Proofs.Request.Precedence

When the gate says that something required is missing. It reads the parameters one by one, and the
first that it cannot read decides: a missing target is reported before all but the collection, a
missing rank after the target was read, and a missing property for outliers after both
(`request_eq_missing_iff`). So a malformed target hides that a property for outliers is missing
(`request_hides_missing`).
-/

namespace EventQuery
namespace Gate

open Outcome

/-! ## What is missing -/

def MissesTarget (a : Archetype) (p : Params) : Prop :=
  a ≠ .count ∧ a ≠ .extraction ∧ present p.targetProperty = none

def MissesRank (a : Archetype) (p : Params) : Prop :=
  a = .percentile ∧ present p.percentile = none

def MissesOutliersIn (p : Params) : Prop :=
  (p.outliers = some "exclude" ∨ p.outliers = some "only") ∧ present p.outliersIn = none

/-- The target, or the targets of an extraction, if any are given, are names of properties. -/
def ReadsTarget (a : Archetype) (p : Params) : Prop :=
  if a = .extraction then ∃ names, targets p.targetProperty = .ok names
  else ∃ name, target a p.targetProperty = .ok name

def ReadsRank (a : Archetype) (p : Params) : Prop := ∃ rank, requestRank a p.percentile = .ok rank

/-! ## Step by step -/

variable {α β : Type}

/-- A complaint does not say that something is missing. -/
theorem ne_missing {o : Outcome α} (h : FailsAmong [] o) : o ≠ .error .targetNotProvided :=
  fun ho => h _ ho

theorem target_eq_missing {a : Archetype} {p : Params} :
    target a p.targetProperty = .error .targetNotProvided ↔ MissesTarget a p := by
  have hrequires : a.requiresTarget = true ↔ a ≠ .count ∧ a ≠ .extraction := by
    cases a <;> simp [Archetype.requiresTarget]
  unfold target optionalProperty MissesTarget
  cases present p.targetProperty with
  | none =>
    rw [← and_assoc, ← hrequires, and_iff_left rfl]
    dsimp only
    split
    · exact iff_of_true rfl ‹_›
    · exact iff_of_false nofun ‹_›
  | some s =>
    -- a malformed target is there
    refine iff_of_false ?_ fun h => by cases h.2.2
    dsimp only
    cases hname : Name.property "target property" (.text s) with
    | error e =>
      intro h
      cases h
      exact ne_missing (Name.failsAmong_property _ _) hname
    | ok name => exact nofun

theorem requestRank_eq_missing {a : Archetype} {p : Params} :
    requestRank a p.percentile = .error .targetNotProvided ↔ MissesRank a p := by
  have hrequires : a.requiresRank = true ↔ a = .percentile := by
    cases a <;> simp [Archetype.requiresRank]
  unfold requestRank MissesRank
  rw [← hrequires]
  split
  · cases present p.percentile with
    | none => exact iff_of_true rfl ⟨‹_›, rfl⟩
    | some raw => exact iff_of_false (ne_missing (failsAmong_rank raw).map) nofun
  · exact iff_of_false nofun fun h => absurd h.1 ‹_›

theorem outliers_eq_ok {raw : Option String} {mode : OutlierMode} (h : outliers raw = .ok mode)
    (hmode : mode ≠ .include) : raw = some mode.name := by
  unfold outliers at h
  split at h
  · cases h
    exact absurd rfl hmode
  · rename_i s hs
    split at h
    · rename_i hm
      cases h
      obtain ⟨rfl, _⟩ := Option.filter_eq_some_iff.mp hs
      have hfound : OutlierMode.all.find? (fun m => m.name == s) = some mode := hm
      have hname : mode.name = s := by simpa using List.find?_some hfound
      rw [hname]
    · cases h

theorem outliersIn_eq_missing {p : Params} :
    (∃ mode, outliers p.outliers = .ok mode ∧
      outliersIn mode p.outliersIn = .error .targetNotProvided) ↔ MissesOutliersIn p := by
  have hmissing : ∀ mode, outliersIn mode p.outliersIn = .error .targetNotProvided ↔
      mode ≠ .include ∧ present p.outliersIn = none := by
    intro mode
    unfold outliersIn
    split
    · exact iff_of_false nofun fun h => absurd ‹_› h.1
    · cases present p.outliersIn with
      | none => exact iff_of_true rfl ⟨‹_›, rfl⟩
      | some raw => exact iff_of_false (ne_missing (Name.failsAmong_property _ _).map) nofun
  constructor
  · rintro ⟨mode, hmode, h⟩
    obtain ⟨hne, hnone⟩ := (hmissing mode).mp h
    refine ⟨?_, hnone⟩
    have hraw := outliers_eq_ok hmode hne
    cases mode with
    | «include» => exact absurd rfl hne
    | exclude => exact .inl hraw
    | only => exact .inr hraw
  · rintro ⟨hraw | hraw, hnone⟩
    · exact ⟨.exclude, by rw [hraw]; rfl, (hmissing _).mpr ⟨by decide, hnone⟩⟩
    · exact ⟨.only, by rw [hraw]; rfl, (hmissing _).mpr ⟨by decide, hnone⟩⟩

variable {a : Archetype} {project : String} {p : Params} {defaultLatest : Int}
  {collection : String}

theorem readsTarget_iff : ReadsTarget a p ↔
    (∃ names, skipIf (a ≠ .extraction) [] (targets p.targetProperty) = .ok names) ∧
      ∃ name, skipIf (a = .extraction) none (target a p.targetProperty) = .ok name := by
  unfold ReadsTarget skipIf
  by_cases ha : a = .extraction
  · simp [ha]
  · simp [ha]

theorem skipIf_eq_error {skips : Prop} [Decidable skips] {default : α} {read : Outcome α}
    {e : Failure} (h : skipIf skips default read = .error e) : read = .error e := by
  unfold skipIf at h
  split at h
  · cases h
  · exact h

theorem request_eq_missing_iff
    (hcollection : Name.flat "event collection" (.ofText? p.eventCollection) = .ok collection) :
    request a project p defaultLatest = .error .targetNotProvided ↔
      MissesTarget a p ∨
        ReadsTarget a p ∧ (MissesRank a p ∨ ReadsRank a p ∧ MissesOutliersIn p) := by
  rw [request_eq, hcollection]
  constructor
  · intro h
    -- the first step that does not succeed is the one that reports
    obtain h | ⟨_, _, h⟩ := bind_eq_error.mp h
    · cases h
    obtain h | ⟨names, htargets, h⟩ := bind_eq_error.mp h
    · exact absurd h (ne_missing (failsOnly_skipIf (failsAmong_targets _)))
    obtain h | ⟨name, htarget, h⟩ := bind_eq_error.mp h
    · exact .inl (target_eq_missing.mp (skipIf_eq_error h))
    have hreads : ReadsTarget a p := readsTarget_iff.mpr ⟨⟨names, htargets⟩, name, htarget⟩
    obtain h | ⟨rank, hrank, h⟩ := bind_eq_error.mp h
    · exact .inr ⟨hreads, .inl (requestRank_eq_missing.mp h)⟩
    obtain h | ⟨mode, hmode, h⟩ := bind_eq_error.mp h
    · exact absurd h (ne_missing (failsAmong_outliers _))
    obtain h | ⟨property, _, h⟩ := bind_eq_error.mp h
    · exact .inr ⟨hreads, .inr ⟨⟨rank, hrank⟩, outliersIn_eq_missing.mp ⟨mode, hmode, h⟩⟩⟩
    -- what is read after them is optional
    refine absurd h (ne_missing ?_)
    refine FailsOnly.bind (failsOnly_skipIf (failsAmong_optionalProperty _ _)) fun groupBy _ => ?_
    refine FailsOnly.bind (failsAmong_latest _ _) fun latest _ => ?_
    refine FailsOnly.bind (failsOnly_skipIf (failsAmong_interval _)) fun interval _ => ?_
    exact FailsOnly.bind (Filter.failsAmong_parse _) fun filters _ => failsOnly_ok _
  · rintro (hmissing | ⟨hreads, hlater⟩)
    · have ha := hmissing.2.1
      refine bind_eq_error.mpr (.inr ⟨collection, rfl, bind_eq_error.mpr (.inr ⟨[], ?_, ?_⟩)⟩)
      · rw [skipIf, if_pos ha]
      · refine bind_eq_error.mpr (.inl ?_)
        rw [skipIf, if_neg ha]
        exact target_eq_missing.mpr hmissing
    · obtain ⟨⟨names, htargets⟩, name, htarget⟩ := readsTarget_iff.mp hreads
      refine bind_eq_error.mpr (.inr ⟨collection, rfl, ?_⟩)
      refine bind_eq_error.mpr (.inr ⟨names, htargets, ?_⟩)
      refine bind_eq_error.mpr (.inr ⟨name, htarget, ?_⟩)
      rcases hlater with hmissing | ⟨⟨rank, hrank⟩, hmissing⟩
      · exact bind_eq_error.mpr (.inl (requestRank_eq_missing.mpr hmissing))
      · obtain ⟨mode, hmode, hproperty⟩ := outliersIn_eq_missing.mpr hmissing
        refine bind_eq_error.mpr (.inr ⟨rank, hrank, ?_⟩)
        refine bind_eq_error.mpr (.inr ⟨mode, hmode, ?_⟩)
        exact bind_eq_error.mpr (.inl hproperty)

/-- Outliers are to be left out, but of which property is not said. -/
def undecided : Params where
  eventCollection := some "measurements"
  outliers := some "exclude"

theorem request_eq_missing_undecided :
    Name.flat "event collection" (.ofText? undecided.eventCollection) = .ok "measurements" ∧
      request .count "p1" undecided 5000 = .error .targetNotProvided := by
  refine ⟨rfl, (request_eq_missing_iff rfl).mpr (.inr ⟨?_, .inr ⟨?_, ?_⟩⟩)⟩
  · exact ⟨none, rfl⟩
  · exact ⟨none, rfl⟩
  · exact ⟨.inl rfl, rfl⟩

/-- The same, with a target that is no name of a property. A count takes a target and needs none. -/
def undecidedVoltage : Params := { undecided with targetProperty := some "Voltage" }

theorem request_hides_missing :
    Name.flat "event collection" (.ofText? undecidedVoltage.eventCollection) = .ok "measurements" ∧
      MissesOutliersIn undecidedVoltage ∧
      request .count "p1" undecidedVoltage 5000
        = .error (.badQuery (.property "target property" "Voltage")) :=
  ⟨rfl, ⟨.inl rfl, rfl⟩, rfl⟩

end Gate
end EventQuery
