import EventQuery.Proofs.Outcome
import EventQuery.Proofs.Run.Within

/-!
# EventQuery.Proofs.Run.Protocol

The order of calls. A protocol says which call comes first and, once it was answered, how to go on.
`Protocol.Follows p xs o`: the exchanges `xs` follow the protocol from its start, without a gap, up
to a call that failed or to a step in between that did; a run that succeeds has made all its calls.
`Run.Keeps` is the same of the tree of a run, whatever it is answered. It is proved part by part
(`Keeps.bind`): what is left of the protocol where one part ends is where the next one goes on.
`Keeps.follows` takes it to the runs that have ended, and `Follows.nodup_calls` finds that no call
is made twice when each call of the protocol comes at a later stage than those before it.
-/

namespace EventQuery

/-- The call of the exchange could not be answered. -/
def Exchange.Failed : Exchange → Prop
  | statement _ answer => ∃ o, answer = .error o
  | get _ answer => ∃ o, answer = .error o
  | set _ _ answer => ∃ o, answer = .error o

inductive Protocol where
  /-- No call is left. -/
  | finished
  /-- One call, and what comes after it. -/
  | call (expected : Call → Prop) (after : Exchange → Protocol)

namespace Protocol

variable {α : Type}

inductive Follows : Protocol → List Exchange → Outcome α → Prop where
  /-- All calls were made. -/
  | finished {a : α} : Follows finished [] (.ok a)
  /-- A step between two calls failed, and no call comes after it. -/
  | stopped {p : Protocol} {e : Failure} : Follows p [] (.error e)
  /-- A call failed, and no call comes after it. -/
  | failed {expected : Call → Prop} {after : Exchange → Protocol} {x : Exchange} {e : Failure} :
      expected x.call → x.Failed → Follows (call expected after) [x] (.error e)
  | next {expected : Call → Prop} {after : Exchange → Protocol} {x : Exchange}
      {xs : List Exchange} {o : Outcome α} : expected x.call → ¬x.Failed →
      Follows (after x) xs o → Follows (call expected after) (x :: xs) o

/-- Each call comes at a later stage than those before it. -/
def Ascends (stage : Call → Nat) (n : Nat) : Protocol → Prop
  | finished => True
  | call expected after =>
    ∀ x : Exchange, expected x.call →
      n ≤ stage x.call ∧ (after x).Ascends stage (stage x.call + 1)

theorem Ascends.mono {stage : Call → Nat} {m n : Nat} {p : Protocol} (h : p.Ascends stage n)
    (hmn : m ≤ n) : p.Ascends stage m := by
  cases p with
  | finished => trivial
  | call expected after =>
    intro x hx
    exact ⟨Nat.le_trans hmn (h x hx).1, (h x hx).2⟩

theorem Follows.ascends {stage : Call → Nat} {n : Nat} {p : Protocol} {xs : List Exchange}
    {o : Outcome α} (h : p.Follows xs o) (hp : p.Ascends stage n) :
    (∀ x ∈ xs, n ≤ stage x.call) ∧ xs.Pairwise fun x y => stage x.call < stage y.call := by
  induction h generalizing n with
  | finished => simp
  | stopped => simp
  | @failed expected after x e hx hfailed => simpa using (hp x hx).1
  | @next expected after x xs o hx hanswered hrest ih =>
    obtain ⟨hn, hafter⟩ := hp x hx
    obtain ⟨hlater, hpairwise⟩ := ih hafter
    refine ⟨List.forall_mem_cons.mpr ⟨hn, fun y hy => ?_⟩, List.pairwise_cons.mpr ⟨?_, hpairwise⟩⟩
    · have hy := hlater y hy
      omega
    · intro y hy
      have hy := hlater y hy
      omega

theorem Follows.nodup_calls {stage : Call → Nat} {p : Protocol} {xs : List Exchange}
    {o : Outcome α} (h : p.Follows xs o) (hp : p.Ascends stage 0) :
    (xs.map Exchange.call).Nodup := by
  refine List.pairwise_map.mpr ((h.ascends hp).2.imp fun {x y} hlt heq => ?_)
  rw [heq] at hlt
  exact Nat.lt_irrefl _ hlt

end Protocol

namespace Run

variable {α β : Type} {leaves : α → Protocol → Prop} {ends : β → Protocol → Prop} {p : Protocol}

/-- The calls of the run are those of the protocol; where the run has a value, `leaves` says what
is left of the protocol. -/
inductive Keeps (leaves : α → Protocol → Prop) : Run α → Protocol → Prop where
  | ok {a : α} {p : Protocol} : leaves a p → Keeps leaves (.done (.ok a)) p
  | error {e : Failure} {p : Protocol} : Keeps leaves (.done (.error e)) p
  | statement {st : Statement} {next : Except Outage (List Record) → Run α}
      {expected : Call → Prop} {after : Exchange → Protocol} : expected (.statement st) →
      (∀ rows, Keeps leaves (next (.ok rows)) (after (.statement st (.ok rows)))) →
      (∀ outage, ∃ e, next (.error outage) = .done (.error e)) →
      Keeps leaves (.statement st next) (.call expected after)
  | get {key : String} {next : Except Outage (Option String) → Run α}
      {expected : Call → Prop} {after : Exchange → Protocol} : expected (.get key) →
      (∀ raw, Keeps leaves (next (.ok raw)) (after (.get key (.ok raw)))) →
      (∀ outage, ∃ e, next (.error outage) = .done (.error e)) →
      Keeps leaves (.get key next) (.call expected after)
  | set {key text : String} {next : Except Outage Unit → Run α}
      {expected : Call → Prop} {after : Exchange → Protocol} : expected (.set key text) →
      (∀ u, Keeps leaves (next (.ok u)) (after (.set key text (.ok u)))) →
      (∀ outage, ∃ e, next (.error outage) = .done (.error e)) →
      Keeps leaves (.set key text next) (.call expected after)

theorem keeps_ofOutcome {o : Outcome α} (h : ∀ a, o = .ok a → leaves a p) :
    Keeps leaves (ofOutcome o) p := by
  cases o with
  | ok a => exact .ok (h a rfl)
  | error e => exact .error

/-- A failure of the first part is one of the whole. -/
theorem fails_bind {r : Run α} {f : α → Run β} (h : ∃ e, r = .done (.error e)) :
    ∃ e, r.bind f = .done (.error e) := by
  obtain ⟨e, rfl⟩ := h
  exact ⟨e, rfl⟩

theorem Keeps.bind {r : Run α} {f : α → Run β} (hr : Keeps leaves r p)
    (hf : ∀ a q, leaves a q → Keeps ends (f a) q) : Keeps ends (r.bind f) p := by
  induction hr with
  | ok ha => exact hf _ _ ha
  | error => exact .error
  | statement hcall _ hfails ih => exact .statement hcall ih fun o => fails_bind (hfails o)
  | get hcall _ hfails ih => exact .get hcall ih fun o => fails_bind (hfails o)
  | set hcall _ hfails ih => exact .set hcall ih fun o => fails_bind (hfails o)

theorem keeps_ofOutcome_bind {o : Outcome α} {f : α → Run β}
    (hf : ∀ a, o = .ok a → Keeps ends (f a) p) : Keeps ends ((ofOutcome o).bind f) p := by
  cases o with
  | ok a => exact hf a rfl
  | error e => exact .error

/-- A run whose next call failed has come to its end. -/
theorem EndsIn.of_failed {r : Run α} {xs : List Exchange} {o : Outcome α} (h : r.EndsIn xs o)
    (hr : ∃ e, r = .done (.error e)) : xs = [] ∧ ∃ e, o = .error e := by
  obtain ⟨e, rfl⟩ := hr
  obtain ⟨rfl, rfl⟩ := endsIn_done.mp h
  exact ⟨rfl, e, rfl⟩

theorem Keeps.follows {r : Run α} {xs : List Exchange} {o : Outcome α}
    (hr : Keeps (fun _ q => q = .finished) r p) (h : r.EndsIn xs o) : p.Follows xs o := by
  induction hr generalizing xs with
  | ok hfinished =>
    obtain ⟨rfl, rfl⟩ := endsIn_done.mp h
    rw [hfinished]
    exact .finished
  | error =>
    obtain ⟨rfl, rfl⟩ := endsIn_done.mp h
    exact .stopped
  | statement hcall _ hfails ih =>
    cases h with
    | @statement _ _ answer ys _ h =>
      cases answer with
      | ok rows => exact .next hcall (by simp [Exchange.Failed]) (ih rows h)
      | error outage =>
        obtain ⟨rfl, e, rfl⟩ := h.of_failed (hfails outage)
        exact .failed hcall ⟨outage, rfl⟩
  | get hcall _ hfails ih =>
    cases h with
    | @get _ _ answer ys _ h =>
      cases answer with
      | ok raw => exact .next hcall (by simp [Exchange.Failed]) (ih raw h)
      | error outage =>
        obtain ⟨rfl, e, rfl⟩ := h.of_failed (hfails outage)
        exact .failed hcall ⟨outage, rfl⟩
  | set hcall _ hfails ih =>
    cases h with
    | @set _ _ _ answer ys _ h =>
      cases answer with
      | ok u => exact .next hcall (by simp [Exchange.Failed]) (ih u h)
      | error outage =>
        obtain ⟨rfl, e, rfl⟩ := h.of_failed (hfails outage)
        exact .failed hcall ⟨outage, rfl⟩

end Run

namespace Client

open Run

variable {s : Settings} {expected : Call → Prop} {after : Exchange → Protocol}

theorem fetch_keeps {st : Statement} (h : expected (.statement st)) :
    Keeps (fun _ q => ∃ rows, q = after (.statement st (.ok rows))) (fetch s st)
      (.call expected after) :=
  .statement h (fun rows => .ok ⟨rows, rfl⟩) fun outage => ⟨storeFailure s outage, rfl⟩

theorem fetchOne_keeps {st : Statement} (h : expected (.statement st)) :
    Keeps (fun _ q => ∃ rows, q = after (.statement st (.ok rows))) (fetchOne s st)
      (.call expected after) := (fetch_keeps h).bind fun _ _ hq => .ok hq

/-- There is no object exactly where there is no document. -/
theorem read_keeps {key : String} (h : expected (.get key)) :
    Keeps (fun found q => ∃ raw, q = after (.get key (.ok raw)) ∧ (found = none ↔ raw = none))
      (read s key) (.call expected after) := by
  unfold read
  split
  · exact .error
  · refine .get h (fun raw => ?_) fun outage => ⟨cacheFailure s outage, rfl⟩
    cases raw with
    | none => exact .ok ⟨none, rfl, by simp⟩
    | some raw =>
      refine keeps_ofOutcome fun found hfound => ⟨some raw, rfl, ?_⟩
      obtain ⟨fields, _, rfl⟩ := Outcome.map_eq_ok hfound
      simp

theorem write_keeps {key : String} {v : Value} (h : ∀ text, expected (.set key text)) :
    Keeps (fun _ q => ∃ text, q = after (.set key text (.ok ()))) (write s key v)
      (.call expected after) := by
  unfold write
  split
  · exact .error
  · rename_i text _
    split
    · exact .error
    · exact .set (h text) (fun _ => .ok ⟨text, rfl⟩) fun outage => ⟨cacheFailure s outage, rfl⟩

end Client
end EventQuery
