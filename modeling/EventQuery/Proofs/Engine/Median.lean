import EventQuery.Proofs.Engine.Retrieval
import EventQuery.Proofs.Reduction.Percentile

/-!
# EventQuery.Proofs.Engine.Median

The median of a request. Without an interval and a group it is the lower of the middle elements of
the rows that the filters keep, and percentiles at other ranks lie around it in their order
(`percentiles_in_order`).
-/

namespace EventQuery
namespace Engine

open Binary64

variable {s : Settings} {r : Request} {now : DateTime} {calls : List Exchange}
  {kept : List Record}

/-- A request sends some calls and keeps some of the rows that come back. -/
def Keeps (s : Settings) (r : Request) (now : DateTime) (calls : List Exchange)
    (kept : List Record) : Prop :=
  ∃ xs ys st raw r', calls = xs ++ (ys ++ [.statement st (.ok raw)]) ∧
    (coerceFilters s r).EndsIn xs (.ok r') ∧ (compile s r' now).EndsIn ys (.ok st) ∧
    Filter.selectAll r'.filters (raw.map Client.decodeRecord) = .ok kept

theorem Keeps.execute_endsIn (h : Keeps s r now calls kept)
    (hfilters : r.archetype.filtersRows = true) :
    (execute s r now).EndsIn calls (Shape.ofRows r kept) := by
  obtain ⟨xs, ys, st, raw, r', rfl, hcoerce, hcompile, hkept⟩ := h
  obtain ⟨filters, rfl⟩ := coerceFilters_endsIn_ok hcoerce
  have hfetch : (Client.fetch s st).EndsIn [.statement st (.ok raw)]
      (.ok (raw.map Client.decodeRecord)) := Client.fetch_endsIn_ok.mpr ⟨raw, rfl, rfl⟩
  refine hcoerce.bind_iff.mpr (hcompile.bind_iff.mpr ?_)
  rw [← List.append_nil [Exchange.statement st (.ok raw)]]
  refine hfetch.bind_iff.mpr ?_
  rw [if_pos hfilters, hkept]
  exact Run.endsIn_ofOutcome.mpr ⟨rfl, rfl⟩

theorem isPercentage_medianRank : Archetype.medianRank.IsPercentage :=
  Percentile.isRank_iff.mp (by decide +kernel)

theorem toRat_medianRank : Archetype.medianRank.toRat = 50 := by decide +kernel

variable {project : String} {p : Params} {defaultLatest : Int}

/-- A median without an interval and a group is one value under its name. -/
theorem ofRows_median (h : Gate.request .median project p defaultLatest = .ok r)
    (hinterval : r.interval = none) (hgroup : present r.groupBy = none) :
    Shape.ofRows r kept
      = (Percentile.ofValues (Reduction.targetValues kept r.target)
          (some Archetype.medianRank)).map (Shape.single "median") := by
  obtain ⟨harchetype, -, -, -, -, hrank, -⟩ := Gate.request_eq_ok h
  have hfifty : r.rank = some Archetype.medianRank := (Except.ok.inj hrank).symm
  simp only [Shape.ofRows, harchetype, Archetype.resultName?, Shape.percentile, hinterval, hgroup,
    hfifty]

/-- Percentiles are elements in the order of their ranks, whatever is between the integers and
however they are listed. The median of a request is the one at fifty, the lower middle element. -/
theorem percentiles_in_order {values : List Value} (h : Percentile.Exact values)
    (hne : Percentile.listed values ≠ [])
    (hcount : (Percentile.listed values).length < twoTo 53) :
    ∃ pick, Percentile.InOrder values pick ∧
      (∀ values' rank, (values'.filter Value.isNumber).Perm (values.filter Value.isNumber) →
        Percentile.ofValues values' rank = Percentile.ofValues values rank) ∧
      (∀ rows target rank, Reduction.targetValues rows target = values →
        Reduction.reduce rows .median target rank
          = .ok (.float (ofInt (pick Archetype.medianRank)))) ∧
      (Percentile.ascending values)[((Percentile.listed values).length + 1) / 2 - 1]?
        = some (pick Archetype.medianRank) ∧
      ∀ s project p defaultLatest r now calls kept,
        Gate.request .median project p defaultLatest = .ok r → r.interval = none →
        present r.groupBy = none → Keeps s r now calls kept →
        Reduction.targetValues kept r.target = values →
        (execute s r now).EndsIn calls
          (.ok (Shape.single "median" (.float (ofInt (pick Archetype.medianRank))))) := by
  have horder := Percentile.inOrder hne hcount h
  have hmedian := horder.yields _ isPercentage_medianRank
  refine ⟨_, horder, fun values' rank => Percentile.ofValues_of_perm_numbers h.whole, ?reduced,
    horder.middle _ isPercentage_medianRank toRat_medianRank, ?answered⟩
  case reduced =>
    rintro rows target rank rfl
    exact hmedian
  case answered =>
    rintro s project p defaultLatest r now calls kept hgate hinterval hgroup hkeeps rfl
    have hfilters : r.archetype.filtersRows = true := by
      rw [(Gate.request_eq_ok hgate).1]
      rfl
    have hends := hkeeps.execute_endsIn hfilters
    rw [ofRows_median hgate hinterval hgroup, hmedian] at hends
    exact hends

def medianVoltage : Request where
  archetype := .median
  project := "p1"
  collection := "measurements"
  target := some "voltage"
  targets := []
  rank := some Archetype.medianRank
  groupBy := none
  latest := 5000
  interval := none
  outliers := .include
  outliersIn := none
  filters := []
  timeframe := none
  byColumn := false

def selectsVoltage : Statement :=
  ⟨"SELECT \"voltage\" FROM \"p1_measurements\" ORDER BY \"cenote$timestamp\" DESC LIMIT $1",
    [.int 5000]⟩

/-- Four integers, a null and a boolean. -/
def mixedVoltages : List Record :=
  [[("voltage", .int 7)], [("voltage", .null)], [("voltage", .int 1)], [("voltage", .bool true)],
    [("voltage", .int 3)], [("voltage", .int 1)]]

/-- The lower of the middle two is not their mean. -/
theorem percentiles_in_order_mixedVoltages :
    (execute {} medianVoltage (.utc 0)).EndsIn [.statement selectsVoltage (.ok mixedVoltages)]
      (.ok (Shape.single "median" (.float (ofInt 1)))) := by
  have hexact : Percentile.Exact (Reduction.targetValues mixedVoltages (some "voltage")) :=
    ⟨by simp [Percentile.Whole, Reduction.targetValues, mixedVoltages, Record.value, Record.find?,
      Value.isNumber], by decide +kernel⟩
  obtain ⟨pick, -, -, -, hmiddle, hanswer⟩ :=
    percentiles_in_order hexact (by decide +kernel) (by decide +kernel)
  have hpick : pick Archetype.medianRank = 1 := by
    have hfound : some (1 : Int) = some (pick Archetype.medianRank) := by
      rw [← hmiddle]
      decide +kernel
    exact (Option.some.inj hfound).symm
  have hkeeps : Keeps {} medianVoltage (.utc 0) [.statement selectsVoltage (.ok mixedVoltages)]
      mixedVoltages :=
    ⟨[], [], selectsVoltage, mixedVoltages, medianVoltage, rfl, .done, .done, rfl⟩
  have hgate : Gate.request .median "p1"
      { eventCollection := some "measurements", targetProperty := some "voltage" } 5000
        = .ok medianVoltage := rfl
  rw [← hpick]
  exact hanswer _ _ _ _ _ _ _ _ hgate rfl rfl hkeeps rfl

end Engine
end EventQuery
