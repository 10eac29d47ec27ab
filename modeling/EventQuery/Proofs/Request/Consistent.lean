import EventQuery.Proofs.Binary64.Rounding
import EventQuery.Proofs.Request.Gate
import EventQuery.Reduction.Percentile

/-!
# EventQuery.Proofs.Request.Consistent

What the options of an accepted request are to each other and to its archetype. `Request.Consistent`
lists it, and `Gate.consistent_of_request` finds it in what the gate has read: a positive row cap or
the default, a rank where the archetype has one, a target where it needs one, and none of the
options that it does not take.
-/

namespace EventQuery

/-- A rank from 0 to 100. -/
def Binary64.IsPercentage (x : Binary64) : Prop :=
  x.isFinite = true ∧ 0 ≤ x.toRat ∧ x.toRat ≤ 100

theorem Percentile.isRank_iff {x : Binary64} : isRank x = true ↔ x.IsPercentage := by
  have hzero : (Binary64.ofInt 0).isFinite = true := by decide +kernel
  have hhundred : (Binary64.ofInt 100).isFinite = true := by decide +kernel
  rw [isRank, Bool.and_eq_true_iff, Binary64.IsPercentage, ← Binary64.toRat_ofInt_zero,
    ← Binary64.toRat_ofInt_hundred]
  constructor
  · rintro ⟨hlow, hhigh⟩
    have hfinite := Binary64.isFinite_of_atMost hzero hhundred hlow hhigh
    exact ⟨hfinite, (Binary64.atMost_iff hzero hfinite).mp hlow,
      (Binary64.atMost_iff hfinite hhundred).mp hhigh⟩
  · rintro ⟨hfinite, hlow, hhigh⟩
    exact ⟨(Binary64.atMost_iff hzero hfinite).mpr hlow,
      (Binary64.atMost_iff hfinite hhundred).mpr hhigh⟩

/-- The ranks of an archetype. -/
def Archetype.Ranks (a : Archetype) (rank : Option Binary64) : Prop :=
  match a with
  | percentile => ∃ x ∈ rank, x.IsPercentage
  | median => ∃ x ∈ rank, x.toRat = 50
  | _ => rank = none

/-- The properties that a mode looks for outliers in. -/
def OutlierMode.LooksIn (mode : OutlierMode) (property : Option String) : Prop :=
  match mode with
  | .include => property = none
  | _ => ∃ x ∈ property, Name.isProperty x = true

structure Request.Consistent (a : Archetype) (project : String) (defaultLatest : Int)
    (r : Request) : Prop where
  archetype : r.archetype = a
  project : r.project = project
  latest : 0 < r.latest ∨ r.latest = defaultLatest
  rank : a.Ranks r.rank
  outliersIn : r.outliers.LooksIn r.outliersIn
  extraction : a = .extraction → r.interval = none ∧ r.groupBy = none ∧ r.target = none
  others : a ≠ .extraction → r.targets = [] ∧ r.byColumn = false
  target : a ≠ .extraction → a ≠ .count → ∃ t ∈ r.target, Name.isProperty t = true

namespace Gate

variable {a : Archetype} {project : String} {p : Params} {defaultLatest : Int} {r : Request}

theorem latest_eq_ok {raw : Option String} {n : Int} (h : latest raw defaultLatest = .ok n) :
    0 < n ∨ n = defaultLatest := by
  unfold latest at h
  split at h
  · cases h
    exact .inr rfl
  · split at h
    · cases h
    · split at h
      · cases h
      · rename_i hpositive
        cases h
        exact .inl (by omega)

theorem isPercentage_rank {raw : String} {x : Binary64} (h : rank raw = .ok x) :
    x.IsPercentage := by
  unfold rank at h
  split at h
  · cases h
  · split at h
    · rename_i hrank
      cases h
      exact Percentile.isRank_iff.mp hrank
    · cases h

theorem ranks_requestRank {raw : Option String} {x : Option Binary64}
    (h : requestRank a raw = .ok x) : a.Ranks x := by
  unfold requestRank at h
  cases a with
  | percentile =>
    rw [if_pos (show Archetype.percentile.requiresRank = true from rfl)] at h
    split at h
    · cases h
    · obtain ⟨y, hy, rfl⟩ := Outcome.map_eq_ok h
      exact ⟨y, rfl, isPercentage_rank hy⟩
  | median =>
    cases h
    exact ⟨_, rfl, by decide +kernel⟩
  | _ =>
    cases h
    rfl

theorem looksIn_outliersIn {mode : OutlierMode} {raw name : Option String}
    (h : outliersIn mode raw = .ok name) : mode.LooksIn name := by
  cases mode with
  | «include» =>
    cases h
    rfl
  | exclude => exact isProperty_outliersIn h (by decide)
  | only => exact isProperty_outliersIn h (by decide)

theorem target_eq_ok {raw name : Option String} (h : target a raw = .ok name)
    (ha : a.requiresTarget = true) : ∃ t ∈ name, Name.isProperty t = true := by
  have hproperty := isProperty_target h
  unfold target at h
  split at h
  · cases h
  · rw [if_pos ha] at h
    cases h
  · cases h
    exact ⟨_, rfl, hproperty _ rfl⟩

theorem skipIf_of_skips {α : Type} {skips : Prop} [Decidable skips] {default x : α}
    {read : Outcome α} (hskips : skips) (h : skipIf skips default read = .ok x) : x = default := by
  rw [skipIf, if_pos hskips] at h
  cases h
  rfl

theorem consistent_of_request (h : request a project p defaultLatest = .ok r) :
    r.Consistent a project defaultLatest := by
  obtain ⟨harchetype, hproject, _, htargets, htarget, hrank, _, houtliersIn, hgroupBy, hlatest,
    hinterval, _, _, hbyColumn⟩ := request_eq_ok h
  refine ⟨harchetype, hproject, latest_eq_ok hlatest, ranks_requestRank hrank,
    looksIn_outliersIn houtliersIn, ?extraction, ?others, ?target⟩
  case extraction =>
    intro ha
    exact ⟨skipIf_of_skips ha hinterval, skipIf_of_skips ha hgroupBy, skipIf_of_skips ha htarget⟩
  case others =>
    intro ha
    exact ⟨skipIf_of_skips ha htargets, by rw [hbyColumn]; simp [ha]⟩
  case target =>
    intro ha hcount
    rw [skipIf, if_neg ha] at htarget
    refine target_eq_ok htarget ?_
    cases a with
    | count => exact absurd rfl hcount
    | extraction => exact absurd rfl ha
    | _ => rfl

end Gate
end EventQuery
