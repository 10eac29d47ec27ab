import EventQuery.Proofs.Run.Exchange

/-!
# EventQuery.Proofs.Run.World

Runs against a world that answers every call, and the same call always in the same way.
`Run.against` is what a run comes to there, one of the ways in which it can end
(`exists_endsIn_against`); a run in two parts comes to what the second part comes to with the value
of the first (`against_bind_ok`).
-/

namespace EventQuery

/-- The answers of a store and a cache. -/
structure World where
  statement : Statement → Except Outage (List Record)
  get : String → Except Outage (Option String)
  set : String → String → Except Outage Unit

namespace Run

variable {α β : Type} {w : World}

def against (w : World) : Run α → Outcome α
  | done o => o
  | statement s next => (next (w.statement s)).against w
  | get key next => (next (w.get key)).against w
  | set key text next => (next (w.set key text)).against w

/-- A world gives some answers. -/
theorem exists_endsIn_against (w : World) (r : Run α) : ∃ xs, r.EndsIn xs (r.against w) := by
  induction r with
  | done o => exact ⟨[], .done⟩
  | statement s next ih =>
    obtain ⟨xs, h⟩ := ih (w.statement s)
    exact ⟨_, .statement h⟩
  | get key next ih =>
    obtain ⟨xs, h⟩ := ih (w.get key)
    exact ⟨_, .get h⟩
  | set key text next ih =>
    obtain ⟨xs, h⟩ := ih (w.set key text)
    exact ⟨_, .set h⟩

theorem against_bind_ok {r : Run α} {f : α → Run β} {a : α} (h : r.against w = .ok a) :
    (r.bind f).against w = (f a).against w := by
  induction r with
  | done o =>
    cases h
    rfl
  | statement s next ih => exact ih _ h
  | get key next ih => exact ih _ h
  | set key text next ih => exact ih _ h

/-- A run that goes on after one whose value does not matter. -/
theorem against_discard_bind {r : Run α} {f : PUnit → Run β} {a : α} (h : r.against w = .ok a) :
    ((discard r).bind f).against w = (f ⟨⟩).against w := by
  have hdiscard : (discard r).against w = .ok ⟨⟩ := against_bind_ok h
  exact against_bind_ok hdiscard

theorem against_ofOutcome_bind {o : Outcome α} {f : α → Run β} {a : α} (h : o = .ok a) :
    ((ofOutcome o).bind f).against w = (f a).against w := against_bind_ok h

end Run

/-- Rows come back decoded. -/
theorem Client.fetch_against {s : Settings} {w : World} {st : Statement} {rows : List Record}
    (h : w.statement st = .ok rows) :
    (fetch s st).against w = .ok (rows.map decodeRecord) := by
  rw [fetch, Run.against, h]
  rfl

end EventQuery
