import EventQuery.Proofs.Run.Exchange

/-!
# EventQuery.Proofs.Run.Within

What a run can do, whatever it is answered. `Run.Within calls values r`: every call that `r` may
send is one of `calls`, and every value that it may return is one of `values`. A run in two parts
is within bounds when its second part is, for each value that the first may return
(`Within.bind`), so the calls of a long run are found part by part; `Within.of_endsIn` says what
that means for a run that has come to an end.
-/

namespace EventQuery

/-- The call of an exchange, without its answer. -/
def Exchange.call : Exchange → Call
  | statement s _ => .statement s
  | get key _ => .get key
  | set key text _ => .set key text

namespace Run

variable {α β : Type} {calls : Call → Prop} {values : α → Prop} {results : β → Prop}

def Within (calls : Call → Prop) (values : α → Prop) : Run α → Prop
  | done o => ∀ a, o = .ok a → values a
  | statement s next => calls (.statement s) ∧ ∀ answer, (next answer).Within calls values
  | get key next => calls (.get key) ∧ ∀ answer, (next answer).Within calls values
  | set key text next => calls (.set key text) ∧ ∀ answer, (next answer).Within calls values

theorem within_ok {a : α} (h : values a) : (done (.ok a)).Within calls values := by
  intro b hb
  cases hb
  exact h

theorem within_fail (e : Failure) : (fail e : Run α).Within calls values := by
  intro a h
  cases h

theorem within_ofOutcome (o : Outcome α) : (ofOutcome o).Within calls (fun a => o = .ok a) :=
  fun _ h => h

theorem Within.mono {wider : Call → Prop} {r : Run α} (hr : r.Within calls values)
    (hcalls : ∀ c, calls c → wider c) : r.Within wider values := by
  induction r with
  | done o => exact hr
  | statement s next ih => exact ⟨hcalls _ hr.1, fun answer => ih answer (hr.2 answer)⟩
  | get key next ih => exact ⟨hcalls _ hr.1, fun answer => ih answer (hr.2 answer)⟩
  | set key text next ih => exact ⟨hcalls _ hr.1, fun answer => ih answer (hr.2 answer)⟩

theorem Within.bind {r : Run α} {f : α → Run β} (hr : r.Within calls values)
    (hf : ∀ a, values a → (f a).Within calls results) : (r.bind f).Within calls results := by
  induction r with
  | done o =>
    cases o with
    | ok a => exact hf a (hr a rfl)
    | error e => exact within_fail e
  | statement s next ih => exact ⟨hr.1, fun answer => ih answer (hr.2 answer)⟩
  | get key next ih => exact ⟨hr.1, fun answer => ih answer (hr.2 answer)⟩
  | set key text next ih => exact ⟨hr.1, fun answer => ih answer (hr.2 answer)⟩

/-- A run of one outcome and then another run sends the calls of the other. -/
theorem within_bind_ofOutcome {o : Outcome α} {f : α → Run β}
    (hf : ∀ a, o = .ok a → (f a).Within calls results) :
    ((ofOutcome o).bind f).Within calls results := (within_ofOutcome o).bind hf

theorem Within.of_endsIn {r : Run α} {xs : List Exchange} {o : Outcome α}
    (h : r.EndsIn xs o) (hr : r.Within calls values) :
    (∀ x ∈ xs, calls x.call) ∧ ∀ a, o = .ok a → values a := by
  induction h with
  | done => exact ⟨by simp, hr⟩
  | statement _ ih =>
    obtain ⟨hcalls, hvalues⟩ := ih (hr.2 _)
    exact ⟨List.forall_mem_cons.mpr ⟨hr.1, hcalls⟩, hvalues⟩
  | get _ ih =>
    obtain ⟨hcalls, hvalues⟩ := ih (hr.2 _)
    exact ⟨List.forall_mem_cons.mpr ⟨hr.1, hcalls⟩, hvalues⟩
  | set _ ih =>
    obtain ⟨hcalls, hvalues⟩ := ih (hr.2 _)
    exact ⟨List.forall_mem_cons.mpr ⟨hr.1, hcalls⟩, hvalues⟩

/-- A run without calls has no exchanges. -/
theorem Within.no_exchanges {r : Run α} {xs : List Exchange} {o : Outcome α}
    (hr : r.Within (fun _ => False) values) (h : r.EndsIn xs o) : xs = [] :=
  List.eq_nil_iff_forall_not_mem.mpr (hr.of_endsIn h).1

end Run

namespace Client

open Run

variable {calls : Call → Prop} {s : Settings}

theorem fetch_within {st : Statement} (h : calls (.statement st)) :
    (fetch s st).Within calls fun _ => True := by
  refine ⟨h, fun answer => ?_⟩
  cases answer with
  | ok rows => exact within_ok trivial
  | error o => exact within_fail _

theorem fetchOne_within {st : Statement} (h : calls (.statement st)) :
    (fetchOne s st).Within calls fun _ => True :=
  (fetch_within h).bind fun _ _ => within_ok trivial

theorem read_within {key : String} (h : calls (.get key)) :
    (read s key).Within calls fun _ => True := by
  unfold read
  split
  · exact within_fail _
  · refine ⟨h, fun answer => ?_⟩
    cases answer with
    | ok raw =>
      cases raw with
      | none => exact within_ok trivial
      | some raw => exact fun _ _ => trivial
    | error o => exact within_fail _

theorem write_within {key : String} {v : Value} (h : ∀ text, calls (.set key text)) :
    (write s key v).Within calls fun _ => True := by
  unfold write
  split
  · exact within_fail _
  · split
    · exact within_fail _
    · refine ⟨h _, fun answer => ?_⟩
      cases answer with
      | ok _ => exact within_ok trivial
      | error o => exact within_fail _

end Client
end EventQuery
