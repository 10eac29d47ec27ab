import EventQuery.Backend.Client

/-!
# EventQuery.Proofs.Run.Exchange

What a run can come to. `Run.EndsIn r xs o`: with the answers in `xs`, the run `r` sends the calls
in `xs`, in this order, and ends in the outcome `o`. Nothing is assumed of the answers, so what
holds of every way to end holds against every backend.

* `EndsIn.split_any`: a run in two parts comes to what one of them comes to.
* `endsIn_bind_ok`: a run in two parts succeeds when both do, one after the other.
* `EndsIn.bind_iff`: once the answers of the first part are known, the second part decides.
-/

namespace EventQuery

/-- A call and its answer. -/
inductive Exchange where
  | statement (s : Statement) (answer : Except Outage (List Record))
  | get (key : String) (answer : Except Outage (Option String))
  | set (key text : String) (answer : Except Outage Unit)

namespace Run

inductive EndsIn {α : Type} : Run α → List Exchange → Outcome α → Prop where
  | done {o : Outcome α} : EndsIn (.done o) [] o
  | statement {s : Statement} {next : Except Outage (List Record) → Run α}
      {answer : Except Outage (List Record)} {xs : List Exchange} {o : Outcome α} :
      EndsIn (next answer) xs o → EndsIn (.statement s next) (.statement s answer :: xs) o
  | get {key : String} {next : Except Outage (Option String) → Run α}
      {answer : Except Outage (Option String)} {xs : List Exchange} {o : Outcome α} :
      EndsIn (next answer) xs o → EndsIn (.get key next) (.get key answer :: xs) o
  | set {key text : String} {next : Except Outage Unit → Run α} {answer : Except Outage Unit}
      {xs : List Exchange} {o : Outcome α} :
      EndsIn (next answer) xs o → EndsIn (.set key text next) (.set key text answer :: xs) o

variable {α β : Type}

theorem endsIn_done {o o' : Outcome α} {xs : List Exchange} :
    EndsIn (.done o) xs o' ↔ xs = [] ∧ o' = o := by
  constructor
  · intro h
    cases h
    exact ⟨rfl, rfl⟩
  · rintro ⟨rfl, rfl⟩
    exact .done

theorem endsIn_ofOutcome {o o' : Outcome α} {xs : List Exchange} :
    EndsIn (.ofOutcome o) xs o' ↔ xs = [] ∧ o' = o := endsIn_done

/-- The answers fix the outcome. -/
theorem EndsIn.deterministic {r : Run α} {xs : List Exchange} {o o' : Outcome α}
    (h : r.EndsIn xs o) (h' : r.EndsIn xs o') : o = o' := by
  induction h with
  | done => cases h'; rfl
  | statement _ ih => cases h' with
    | statement h' => exact ih h'
  | get _ ih => cases h' with
    | get h' => exact ih h'
  | set _ ih => cases h' with
    | set h' => exact ih h'

/-- With the answers that the first part of a run got, what the run comes to is what its second
part comes to. -/
theorem EndsIn.bind_iff {r : Run α} {f : α → Run β} {xs ys : List Exchange} {a : α}
    {o : Outcome β} (h : r.EndsIn xs (.ok a)) :
    (r.bind f).EndsIn (xs ++ ys) o ↔ (f a).EndsIn ys o := by
  -- a failure of the first part is no case: its outcome is given
  generalize hr : (Except.ok a : Outcome α) = first at h
  induction h with
  | done => subst hr; rfl
  | statement _ ih =>
    refine ⟨fun h => ?_, fun h => .statement ((ih hr).mpr h)⟩
    cases h with
    | statement h => exact (ih hr).mp h
  | get _ ih =>
    refine ⟨fun h => ?_, fun h => .get ((ih hr).mpr h)⟩
    cases h with
    | get h => exact (ih hr).mp h
  | set _ ih =>
    refine ⟨fun h => ?_, fun h => .set ((ih hr).mpr h)⟩
    cases h with
    | set h => exact (ih hr).mp h

/-- A run in two parts ends in the failure of the first or in what the second comes to. -/
theorem EndsIn.split_any {r : Run α} {f : α → Run β} {xs : List Exchange} {o : Outcome β}
    (h : (r.bind f).EndsIn xs o) :
    (∃ e, r.EndsIn xs (.error e) ∧ o = .error e) ∨
      ∃ a ys zs, xs = ys ++ zs ∧ r.EndsIn ys (.ok a) ∧ (f a).EndsIn zs o := by
  induction r generalizing xs with
  | done first =>
    cases first with
    | ok a => exact .inr ⟨a, [], xs, rfl, .done, h⟩
    | error e =>
      obtain ⟨rfl, rfl⟩ := endsIn_done.mp h
      exact .inl ⟨e, .done, rfl⟩
  | statement s next ih =>
    cases h with
    | statement h =>
      rcases ih _ h with ⟨e, he, ho⟩ | ⟨a, ys, zs, rfl, hr, hf⟩
      · exact .inl ⟨e, .statement he, ho⟩
      · exact .inr ⟨a, _ :: ys, zs, rfl, .statement hr, hf⟩
  | get key next ih =>
    cases h with
    | get h =>
      rcases ih _ h with ⟨e, he, ho⟩ | ⟨a, ys, zs, rfl, hr, hf⟩
      · exact .inl ⟨e, .get he, ho⟩
      · exact .inr ⟨a, _ :: ys, zs, rfl, .get hr, hf⟩
  | set key text next ih =>
    cases h with
    | set h =>
      rcases ih _ h with ⟨e, he, ho⟩ | ⟨a, ys, zs, rfl, hr, hf⟩
      · exact .inl ⟨e, .set he, ho⟩
      · exact .inr ⟨a, _ :: ys, zs, rfl, .set hr, hf⟩

/-- A run of one outcome and then another run is one of the two. -/
theorem EndsIn.split_ofOutcome {first : Outcome α} {f : α → Run β} {xs : List Exchange}
    {o : Outcome β} (h : ((ofOutcome first).bind f).EndsIn xs o) :
    (∃ e, first = .error e ∧ xs = [] ∧ o = .error e) ∨ ∃ a, first = .ok a ∧ (f a).EndsIn xs o := by
  cases first with
  | ok a => exact .inr ⟨a, rfl, h⟩
  | error e =>
    obtain ⟨rfl, rfl⟩ := endsIn_done.mp h
    exact .inl ⟨e, rfl, rfl, rfl⟩

theorem EndsIn.split {r : Run α} {f : α → Run β} {xs : List Exchange} {b : β}
    (h : (r.bind f).EndsIn xs (.ok b)) :
    ∃ a ys zs, xs = ys ++ zs ∧ r.EndsIn ys (.ok a) ∧ (f a).EndsIn zs (.ok b) := by
  rcases h.split_any with ⟨e, _, he⟩ | h
  · cases he
  · exact h

theorem endsIn_bind_ok {r : Run α} {f : α → Run β} {xs : List Exchange} {b : β} :
    (r.bind f).EndsIn xs (.ok b) ↔
      ∃ a ys zs, xs = ys ++ zs ∧ r.EndsIn ys (.ok a) ∧ (f a).EndsIn zs (.ok b) := by
  constructor
  · exact EndsIn.split
  · rintro ⟨a, ys, zs, rfl, hr, hf⟩
    exact hr.bind_iff.mpr hf

end Run

namespace Client

open Run

/-- Rows come back decoded, and there is no other way to succeed. -/
theorem fetch_endsIn_ok {s : Settings} {st : Statement} {xs : List Exchange}
    {rows : List Record} :
    (fetch s st).EndsIn xs (.ok rows) ↔
      ∃ raw, xs = [.statement st (.ok raw)] ∧ rows = raw.map decodeRecord := by
  constructor
  · intro h
    cases h with
    | @statement _ _ answer ys _ hend =>
      cases answer with
      | ok raw =>
        obtain ⟨rfl, hrows⟩ := endsIn_done.mp hend
        cases hrows
        exact ⟨raw, rfl, rfl⟩
      | error o =>
        obtain ⟨_, hrows⟩ := endsIn_done.mp hend
        cases hrows
  · rintro ⟨raw, rfl, rfl⟩
    exact .statement .done

end Client
end EventQuery
