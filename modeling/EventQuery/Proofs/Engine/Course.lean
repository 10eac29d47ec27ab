import EventQuery.Proofs.Engine.Protocol
import EventQuery.Proofs.Project.Entry

/-!
# EventQuery.Proofs.Engine.Course

How far a query gets. Its parts come one after the other, and the first that fails is the last that
sent anything (`Engine.Course`); so the statement of a request is sent when every part before it
has succeeded (`Engine.Prepared`, `Engine.Course.prepared`). `keeps_protocol` puts this together
with the protocols: the exchanges follow them, and no call is made twice.
-/

namespace EventQuery

open Run

namespace Engine

/-- A caller let in, a request accepted, and its filters in the kinds of their columns. -/
inductive Ready (s : Settings) (a : Archetype) (project : String) (p : Params) :
    List Exchange → Request → Prop where
  | intro {xs ys : List Exchange} {who : Project} {r r' : Request} :
      Project.Entry s project (.ofKeys p.readKey p.masterKey) xs (.ok who) →
      Gate.request a project p s.globalLimit = .ok r → (coerceFilters s r).EndsIn ys (.ok r') →
      Ready s a project p (xs ++ ys) r'

/-- All that has to succeed before the statement of a request is sent. -/
inductive Prepared (s : Settings) (a : Archetype) (project : String) (p : Params)
    (now : DateTime) : List Exchange → Statement → Prop where
  | intro {xs ys : List Exchange} {r : Request} {window : Option Window}
      {stats : Option (String × Statistics)} {st : Statement} : Ready s a project p xs r →
      Timeframe.resolve (.ofText? r.timeframe) now = .ok window →
      (outlierStatistics s r).EndsIn ys (.ok stats) → assemble s r window stats = .ok st →
      Prepared s a project p now (xs ++ ys) st

/-- The exchanges of a query, up to the first part that failed, or to its statement. -/
inductive Course (s : Settings) (a : Archetype) (project : String) (p : Params) (now : DateTime) :
    List Exchange → Outcome Value → Prop where
  | denied {xs : List Exchange} {e : Failure} :
      Project.Entry s project (.ofKeys p.readKey p.masterKey) xs (.error e) →
      Course s a project p now xs (.error e)
  | refused {xs : List Exchange} {who : Project} {e : Failure} :
      Project.Entry s project (.ofKeys p.readKey p.masterKey) xs (.ok who) →
      Gate.request a project p s.globalLimit = .error e → Course s a project p now xs (.error e)
  | uncoerced {xs ys : List Exchange} {who : Project} {r : Request} {e : Failure} :
      Project.Entry s project (.ofKeys p.readKey p.masterKey) xs (.ok who) →
      Gate.request a project p s.globalLimit = .ok r → (coerceFilters s r).EndsIn ys (.error e) →
      Course s a project p now (xs ++ ys) (.error e)
  | undated {xs : List Exchange} {r : Request} {e : Failure} : Ready s a project p xs r →
      Timeframe.resolve (.ofText? r.timeframe) now = .error e →
      Course s a project p now xs (.error e)
  | unmeasured {xs ys : List Exchange} {r : Request} {window : Option Window} {e : Failure} :
      Ready s a project p xs r → Timeframe.resolve (.ofText? r.timeframe) now = .ok window →
      (outlierStatistics s r).EndsIn ys (.error e) → Course s a project p now (xs ++ ys) (.error e)
  | unbuilt {xs ys : List Exchange} {r : Request} {window : Option Window}
      {stats : Option (String × Statistics)} {e : Failure} : Ready s a project p xs r →
      Timeframe.resolve (.ofText? r.timeframe) now = .ok window →
      (outlierStatistics s r).EndsIn ys (.ok stats) → assemble s r window stats = .error e →
      Course s a project p now (xs ++ ys) (.error e)
  | sent {xs : List Exchange} {st : Statement} {answer : Except Outage (List Record)}
      {o : Outcome Value} : Prepared s a project p now xs st →
      Course s a project p now (xs ++ [.statement st answer]) o

variable {s : Settings} {a : Archetype} {project : String} {p : Params} {now : DateTime}

/-- What follows a statement without a call of its own works on its rows alone. -/
theorem last_of_fetch {α : Type} {st : Statement} {f : List Record → Run α} {xs : List Exchange}
    {o : Outcome α} (hf : ∀ rows, (f rows).Within (fun _ => False) fun _ => True)
    (h : ((Client.fetch s st).bind f).EndsIn xs o) : ∃ answer, xs = [.statement st answer] := by
  cases h with
  | @statement _ _ answer ys _ h =>
    refine ⟨answer, ?_⟩
    cases answer with
    | ok rows => rw [(hf _).no_exchanges h]
    | error outage => rw [(endsIn_done.mp h).1]

theorem course_of_compile {r : Request} {f : Statement → List Record → Run Value}
    {xs ys : List Exchange} {o : Outcome Value} (hready : Ready s a project p xs r)
    (hf : ∀ st rows, (f st rows).Within (fun _ => False) fun _ => True)
    (h : ((compile s r now).bind fun st => (Client.fetch s st).bind (f st)).EndsIn ys o) :
    Course s a project p now (xs ++ ys) o := by
  rcases h.split_any with ⟨e, hcompile, rfl⟩ | ⟨st, ys, zs, rfl, hcompile, hanswer⟩
  · rcases hcompile.split_ofOutcome with ⟨e, hwindow, rfl, he⟩ | ⟨window, hwindow, hcompile⟩
    · cases he
      rw [List.append_nil]
      exact .undated hready hwindow
    · rcases hcompile.split_any with ⟨e, hstats, he⟩ | ⟨stats, ys, zs, rfl, hstats, hbuild⟩
      · cases he
        exact .unmeasured hready hwindow hstats
      · obtain ⟨rfl, he⟩ := endsIn_done.mp hbuild
        rw [List.append_nil]
        exact .unbuilt hready hwindow hstats he.symm
  · obtain ⟨window, stats, hwindow, hstats, hbuild⟩ := compile_endsIn_ok.mp hcompile
    obtain ⟨answer, rfl⟩ := last_of_fetch (hf st) hanswer
    rw [← List.append_assoc]
    exact .sent (.intro hready hwindow hstats hbuild)

theorem course_of_run {xs : List Exchange} {o : Outcome Value}
    (h : (run s a project p now).EndsIn xs o) : Course s a project p now xs o := by
  have hsplit : run s a project p now = (Project.enter s project ⟨p.readKey, p.masterKey⟩).bind
      fun _ => (ofOutcome (Gate.request a project p s.globalLimit)).bind fun r =>
        execute s r now := run_eq.trans (Run.bind_assoc _ (fun _ => .done (.ok ())) _)
  rw [hsplit] at h
  rcases h.split_any with ⟨e, he, rfl⟩ | ⟨who, ys, zs, rfl, hentry, h⟩
  · exact .denied (Project.entry_of_enter he)
  · have hentry := Project.entry_of_enter hentry
    rcases h.split_ofOutcome with ⟨e, he, rfl, rfl⟩ | ⟨r, hr, h⟩
    · rw [List.append_nil]
      exact .refused hentry he
    · rcases h.split_any with ⟨e, he, rfl⟩ | ⟨r', zs, ws, rfl, hcoerce, h⟩
      · exact .uncoerced hentry hr he
      · rw [← List.append_assoc]
        refine course_of_compile (.intro hentry hr hcoerce) (fun st rows => ?_) h
        split
        · exact within_bind_ofOutcome fun kept _ _ _ => trivial
        · exact fun _ _ => trivial

/-! ### The parts before the statement -/

theorem stage_of_entry {caller : Project.Caller} {xs : List Exchange} {o : Outcome Project}
    (h : Project.Entry s project caller xs o) : ∀ x ∈ xs, x.call.stage project < 5 := by
  intro x hx
  have hstage := (h.isLookup x hx).stage
  omega

theorem stage_of_coerceFilters {r : Request} {xs : List Exchange} {o : Outcome Request}
    (h : (coerceFilters s r).EndsIn xs o) : ∀ x ∈ xs, x.call.stage r.project < 5 := by
  have hwithin : (coerceFilters s r).Within (fun c => c.stage r.project < 5)
      fun r' => ∃ filters, r' = { r with filters } := by
    refine coerceFilters_calls fun st hst => ?_
    have hstage := stage_columnTypes hst
    omega
  exact (hwithin.of_endsIn h).1

theorem stage_of_outlierStatistics {r : Request} {xs : List Exchange}
    {o : Outcome (Option (String × Statistics))} (h : (outlierStatistics s r).EndsIn xs o) :
    ∀ x ∈ xs, x.call.stage r.project < 5 := by
  have hwithin : (outlierStatistics s r).Within (fun c => c.stage r.project < 5)
      fun _ => True := by
    refine outlierStatistics_calls fun property _ => Statistics.get_calls ?_ (fun text => ?_) ?_
    · exact show (2 : Nat) < 5 by omega
    · exact show (4 : Nat) < 5 by omega
    · intro st hst
      have hstage := stage_statistics hst
      omega
  exact (hwithin.of_endsIn h).1

theorem project_of_ready {xs : List Exchange} {r : Request} (h : Ready s a project p xs r) :
    r.project = project := by
  obtain ⟨_, hgate, hcoerce⟩ := h
  obtain ⟨filters, rfl⟩ := (coerceFilters_within.of_endsIn hcoerce).2 _ rfl
  exact (Gate.request_eq_ok hgate).2.1

theorem stage_of_ready {xs : List Exchange} {r : Request} (h : Ready s a project p xs r) :
    ∀ x ∈ xs, x.call.stage project < 5 := by
  obtain ⟨hentry, hgate, hcoerce⟩ := h
  intro x hx
  rcases List.mem_append.mp hx with hx | hx
  · exact stage_of_entry hentry x hx
  · rw [← (Gate.request_eq_ok hgate).2.1]
    exact stage_of_coerceFilters hcoerce x hx

theorem stage_of_measured {xs ys : List Exchange} {r : Request}
    {o : Outcome (Option (String × Statistics))} (h : Ready s a project p xs r)
    (hstats : (outlierStatistics s r).EndsIn ys o) :
    ∀ x ∈ xs ++ ys, x.call.stage project < 5 := by
  intro x hx
  rcases List.mem_append.mp hx with hx | hx
  · exact stage_of_ready h x hx
  · rw [← project_of_ready h]
    exact stage_of_outlierStatistics hstats x hx

/-- A statement of a request is the last call, and comes after all that it needs. -/
theorem Course.prepared {xs : List Exchange} {o : Outcome Value} {r : Request} {x : Exchange}
    (h : Course s a project p now xs o) (hx : x ∈ xs) (hstatement : IsStatementOf s r x.call) :
    ∃ ys st answer, xs = ys ++ [x] ∧ x = .statement st answer ∧
      Prepared s a project p now ys st := by
  have hstage : x.call.stage project = 5 := hstatement.stage
  have hnot : ∀ {ys : List Exchange}, (∀ y ∈ ys, y.call.stage project < 5) → x ∉ ys := by
    intro ys hys hmem
    have hlt := hys x hmem
    omega
  cases h with
  | denied hentry => exact absurd hx (hnot (stage_of_entry hentry))
  | refused hentry _ => exact absurd hx (hnot (stage_of_entry hentry))
  | @uncoerced ys zs who r' e hentry hgate hcoerce =>
    rcases List.mem_append.mp hx with hx | hx
    · exact absurd hx (hnot (stage_of_entry hentry))
    · have hcoerced := stage_of_coerceFilters hcoerce
      rw [(Gate.request_eq_ok hgate).2.1] at hcoerced
      exact absurd hx (hnot hcoerced)
  | undated hready _ => exact absurd hx (hnot (stage_of_ready hready))
  | unmeasured hready _ hstats => exact absurd hx (hnot (stage_of_measured hready hstats))
  | unbuilt hready _ hstats _ => exact absurd hx (hnot (stage_of_measured hready hstats))
  | @sent ys st answer o hprepared =>
    rcases List.mem_append.mp hx with hx | hx
    · obtain ⟨hready, _, hstats, _⟩ := hprepared
      exact absurd hx (hnot (stage_of_measured hready hstats))
    · obtain rfl := List.mem_singleton.mp hx
      exact ⟨ys, st, answer, rfl, rfl, hprepared⟩

end Engine

/-! ## Queries, views and listings -/

theorem Protocol.Follows.call_of_two {α : Type} {first second : Call → Prop} {xs : List Exchange}
    {o : Outcome α}
    (h : (Protocol.call first fun _ => .call second fun _ => .finished).Follows xs o) :
    ∀ x ∈ xs, first x.call ∨ second x.call := by
  intro x hx
  cases h with
  | stopped => cases hx
  | failed hfirst =>
    cases List.mem_singleton.mp hx
    exact .inl hfirst
  | next hfirst _ hrest =>
    rcases List.mem_cons.mp hx with rfl | hx
    · exact .inl hfirst
    · cases hrest with
      | stopped => cases hx
      | failed hsecond =>
        cases List.mem_singleton.mp hx
        exact .inr hsecond
      | next hsecond _ hrest =>
        cases hrest <;> cases List.mem_singleton.mp hx <;> exact .inr hsecond

theorem keeps_protocol (s : Settings) (project : String) :
    (∀ a p now xs o, (Engine.run s a project p now).EndsIn xs o →
      (Engine.protocol s a project p).Follows xs o ∧ (xs.map Exchange.call).Nodup ∧
        Engine.Course s a project p now xs o ∧
        ∀ r, ∀ x ∈ xs, Engine.IsStatementOf s r x.call → ∃ ys st answer, xs = ys ++ [x] ∧
          x = .statement st answer ∧ Engine.Prepared s a project p now ys st) ∧
    (∀ p today xs o, (History.view s project p today).EndsIn xs o →
      (History.protocol s project p).Follows xs o ∧ (xs.map Exchange.call).Nodup ∧
        ∀ key text, .set key text ∉ xs.map Exchange.call) ∧
    ∀ masterKey xs o, (Listing.list s project masterKey).EndsIn xs o →
      (Listing.protocol s project).Follows xs o ∧ (xs.map Exchange.call).Nodup ∧
        ∀ key text, .set key text ∉ xs.map Exchange.call := by
  refine ⟨?query, ?view, ?list⟩
  case query =>
    intro a p now xs o h
    have hfollows := Engine.keeps_run.follows h
    have hcourse := Engine.course_of_run h
    exact ⟨hfollows, hfollows.nodup_calls (Engine.ascends_protocol a p), hcourse,
      fun r x hx => hcourse.prepared hx⟩
  case view =>
    intro p today xs o h
    have hfollows := History.keeps_view.follows h
    refine ⟨hfollows, hfollows.nodup_calls (History.ascends_protocol p), fun key text hset => ?_⟩
    obtain ⟨x, hx, hcall⟩ := List.mem_map.mp hset
    rcases hfollows.call_of_two x hx with ⟨st, _, hst⟩ | ⟨_, _, _, _, hread⟩
    · cases hcall.symm.trans hst
    · cases hcall.symm.trans hread
  case list =>
    intro masterKey xs o h
    have hfollows := Listing.keeps_list.follows h
    refine ⟨hfollows, hfollows.nodup_calls Listing.ascends_protocol, fun key text hset => ?_⟩
    obtain ⟨x, hx, hcall⟩ := List.mem_map.mp hset
    rcases hfollows.call_of_two x hx with ⟨st, _, hst⟩ | ⟨st, hst, _⟩
    · cases hcall.symm.trans hst
    · cases hcall.symm.trans hst

theorem keeps_protocol_visitor :
    ∃ st, (Engine.run Engine.patient .count "p1" Engine.visitor Engine.noon).EndsIn
        (Engine.findsProject :: Engine.computesZeros
          ++ [.statement st (.ok [[("count", .int 7)]])])
        (.ok (Shape.rowValues [[("count", .int 7)]])) ∧
      (Engine.protocol Engine.patient .count "p1" Engine.visitor).Follows
        (Engine.findsProject :: Engine.computesZeros
          ++ [.statement st (.ok [[("count", .int 7)]])])
        (.ok (Shape.rowValues [[("count", .int 7)]])) ∧
      Engine.Prepared Engine.patient .count "p1" Engine.visitor Engine.noon
        (Engine.findsProject :: Engine.computesZeros) st := by
  obtain ⟨st, h⟩ := Engine.run_visitor
  obtain ⟨hquery, _⟩ := keeps_protocol Engine.patient "p1"
  obtain ⟨hfollows, _, hcourse, _⟩ := hquery _ _ _ _ _ h
  refine ⟨st, h, hfollows, ?_⟩
  -- the run succeeded, so its course is the one that comes to the statement
  generalize hxs : Engine.findsProject :: Engine.computesZeros
    ++ [.statement st (.ok [[("count", .int 7)]])] = xs at hcourse
  generalize ho : (.ok (Shape.rowValues [[("count", .int 7)]]) : Outcome Value) = o at hcourse
  cases hcourse with
  | sent hprepared =>
    obtain ⟨hbefore, hlast⟩ := List.append_inj' hxs rfl
    cases hlast
    rw [hbefore]
    exact hprepared
  | _ => cases ho

end EventQuery
