import EventQuery.Proofs.Failure.Statement
import EventQuery.Proofs.Request.Gate

/-!
# EventQuery.Proofs.Failure.Request

What the gate answers to parameters that it does not let through: that something required is
missing, or a complaint about one of them (`Gate.failsOnly_request`). No parameter, however it is
written, gets past the gate as a fault.
-/

namespace EventQuery

open Outcome

/-- What is wrong with parameters: one is missing, or one is malformed. -/
def Failure.OfParameters : Failure → Prop
  | targetNotProvided | badQuery _ => True
  | _ => False

theorem Outcome.FailsAmong.ofParameters {α : Type} {o : Outcome α} (h : FailsAmong [] o) :
    FailsOnly Failure.OfParameters o := by
  refine FailsOnly.mono h fun e he => ?_
  cases e with
  | badQuery why => trivial
  | fault cause => cases he
  | _ => exact he.elim

namespace Filter

theorem failsAmong_ofValue (v : Value) : FailsAmong [] (ofValue v) := by
  unfold ofValue
  split
  · split
    · exact (Name.failsAmong_property _ _).error (by simp) ‹_›
    · dsimp only
      split
      · exact failsAmong_ok _
      · exact failsAmong_complain _
  · exact failsAmong_complain _

theorem failsAmong_ofValues (vs : List Value) : FailsAmong [] (ofValues vs) := by
  induction vs with
  | nil => exact failsAmong_ok _
  | cons v rest ih =>
    unfold ofValues
    split
    · exact (failsAmong_ofValue v).error (by simp) ‹_›
    · split
      · exact ih.error (by simp) ‹_›
      · exact failsAmong_ok _

theorem failsAmong_parse (raw : Value) : FailsAmong [] (parse raw) := by
  unfold parse
  split
  · split
    · exact failsAmong_ofValues _
    · exact failsAmong_ok _
  · exact failsAmong_ofValues _
  · exact failsAmong_ok _

end Filter

namespace Gate

theorem failsAmong_latest (raw : Option String) (default : Int) :
    FailsAmong [] (latest raw default) := by
  unfold latest
  split
  · exact failsAmong_ok _
  · split
    · exact failsAmong_complain _
    · split
      · exact failsAmong_complain _
      · exact failsAmong_ok _

theorem failsAmong_rank (raw : String) : FailsAmong [] (rank raw) := by
  unfold rank
  split
  · exact failsAmong_complain _
  · split
    · exact failsAmong_ok _
    · exact failsAmong_complain _

theorem failsAmong_interval (raw : Option String) : FailsAmong [] (interval raw) := by
  unfold interval
  split
  · exact failsAmong_ok _
  · split
    · exact failsAmong_ok _
    · exact failsAmong_complain _

theorem failsAmong_outliers (raw : Option String) : FailsAmong [] (outliers raw) := by
  unfold outliers
  split
  · exact failsAmong_ok _
  · split
    · exact failsAmong_ok _
    · exact failsAmong_complain _

theorem failsAmong_optionalProperty (what : String) (raw : Option String) :
    FailsAmong [] (optionalProperty what raw) := by
  unfold optionalProperty
  split
  · exact failsAmong_ok _
  · exact (Name.failsAmong_property _ _).map

theorem failsAmong_properties (what : String) (names : List String) :
    FailsAmong [] (properties what names) := by
  induction names with
  | nil => exact failsAmong_ok _
  | cons name rest ih =>
    unfold properties
    split
    · exact (Name.failsAmong_property _ _).error (by simp) ‹_›
    · split
      · exact ih.error (by simp) ‹_›
      · exact failsAmong_ok _

theorem failsAmong_targets (raw : Option String) : FailsAmong [] (targets raw) := by
  unfold targets
  split
  · exact failsAmong_ok _
  · exact failsAmong_properties _ _

/-! ## Required parameters -/

theorem failsOnly_target (a : Archetype) (raw : Option String) :
    FailsOnly Failure.OfParameters (target a raw) := by
  unfold target
  split
  · rename_i e he
    exact failsOnly_error ((failsAmong_optionalProperty _ raw).ofParameters e he)
  · split
    · exact failsOnly_error trivial
    · exact failsOnly_ok _
  · exact failsOnly_ok _

theorem failsOnly_requestRank (a : Archetype) (raw : Option String) :
    FailsOnly Failure.OfParameters (requestRank a raw) := by
  unfold requestRank
  split
  · split
    · exact failsOnly_error trivial
    · exact (failsAmong_rank _).ofParameters.map
  · exact failsOnly_ok _

theorem failsOnly_outliersIn (mode : OutlierMode) (raw : Option String) :
    FailsOnly Failure.OfParameters (outliersIn mode raw) := by
  unfold outliersIn
  split
  · exact failsOnly_ok _
  · split
    · exact failsOnly_error trivial
    · exact (Name.failsAmong_property _ _).ofParameters.map

theorem failsOnly_skipIf {α : Type} {p : Failure → Prop} {skips : Prop} [Decidable skips]
    {default : α} {read : Outcome α} (h : FailsOnly p read) :
    FailsOnly p (skipIf skips default read) := by
  unfold skipIf
  split
  · exact failsOnly_ok _
  · exact h

/-- Step by step, in the order in which the gate reads its parameters. -/
theorem failsOnly_request (a : Archetype) (project : String) (p : Params) (defaultLatest : Int) :
    FailsOnly Failure.OfParameters (request a project p defaultLatest) := by
  rw [request_eq]
  refine (Name.failsAmong_flat _ _).ofParameters.bind fun collection _ => ?_
  refine (failsOnly_skipIf (failsAmong_targets _).ofParameters).bind fun targets _ => ?_
  refine (failsOnly_skipIf (failsOnly_target _ _)).bind fun target _ => ?_
  refine (failsOnly_requestRank _ _).bind fun rank _ => ?_
  refine (failsAmong_outliers _).ofParameters.bind fun mode _ => ?_
  refine (failsOnly_outliersIn _ _).bind fun outliersIn _ => ?_
  refine (failsOnly_skipIf (failsAmong_optionalProperty _ _).ofParameters).bind fun groupBy _ => ?_
  refine (failsAmong_latest _ _).ofParameters.bind fun latest _ => ?_
  refine (failsOnly_skipIf (failsAmong_interval _).ofParameters).bind fun interval _ => ?_
  exact (Filter.failsAmong_parse _).ofParameters.bind fun filters _ => failsOnly_ok _

end Gate
end EventQuery
