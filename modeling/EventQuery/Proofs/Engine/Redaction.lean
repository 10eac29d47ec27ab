import EventQuery.History
import EventQuery.Listing
import EventQuery.Proofs.Engine.Reference
import EventQuery.Proofs.Run.Blind

/-!
# EventQuery.Proofs.Engine.Redaction

Sessions that keep the backend to themselves. A session is a list of operations on one backend,
which may have its outages or its content changed in between. Where the words of backends are hidden
every operation is blind (`Action.blind`), so two sessions on backends that fail at the same places
show the same outcomes and send the same calls, whatever the failures are (`session_alike`).
-/

namespace EventQuery

open Run

/-! ## Blind operations -/

theorem Project.blind_find {s : Settings} (hs : s.exposeErrors = false) (id : String) :
    (Project.find s id).Blind := by
  unfold Project.find
  split
  · refine blind_ofOutcome_bind fun st => ?_
    refine (Client.blind_fetchOne hs st).bind fun row => ?_
    cases row <;> exact .done
  · exact .done

theorem Project.blind_enter {s : Settings} (hs : s.exposeErrors = false) (id : String)
    (c : Credentials) : (Project.enter s id c).Blind := by
  refine blind_ofOutcome_bind fun _ => ?_
  refine (Project.blind_find hs id).bind fun p => ?_
  exact blind_ofOutcome_bind fun _ => .done

theorem Project.blind_enterAsMaster {s : Settings} (hs : s.exposeErrors = false) (id : String)
    (masterKey : Option String) : (Project.enterAsMaster s id masterKey).Blind := by
  unfold Project.enterAsMaster
  split
  · exact .done
  · refine (Project.blind_find hs id).bind fun p => ?_
    split <;> exact .done

theorem Statistics.blind_get {s : Settings} (hs : s.exposeErrors = false)
    (project collection property : Value) :
    (Statistics.get s project collection property).Blind := by
  refine (Client.blind_read hs _).bind fun found => ?_
  cases found with
  | some fields =>
    dsimp only
    split <;> exact .done
  | none =>
    refine blind_ofOutcome_bind fun st => ?_
    refine (Client.blind_fetchOne hs st).bind fun row => ?_
    split
    · exact .done
    · exact (Client.blind_write hs _ _).bind fun _ => .done

theorem History.blind_view {s : Settings} (hs : s.exposeErrors = false) (project : String)
    (p : History.Params) (today : Date) : (History.view s project p today).Blind := by
  refine ((Project.blind_enter hs project _).bind fun _ => .done).bind fun _ => ?_
  refine blind_ofOutcome_bind fun collection => ?_
  split
  · exact .done
  · refine blind_ofOutcome_bind fun property => ?_
    refine blind_ofOutcome_bind fun type => ?_
    dsimp only
    split
    · exact .done
    · refine blind_ofOutcome_bind fun day => ?_
      exact (Client.blind_read hs _).bind fun _ => .done

theorem Listing.blind_list {s : Settings} (hs : s.exposeErrors = false) (project : String)
    (masterKey : Option String) : (Listing.list s project masterKey).Blind := by
  refine ((Project.blind_enterAsMaster hs project masterKey).bind fun _ => .done).bind fun _ => ?_
  refine blind_ofOutcome_bind fun st => ?_
  exact (Client.blind_fetch hs st).bind fun _ => .done

namespace Engine

variable {s : Settings}

theorem blind_coerceFilters (hs : s.exposeErrors = false) (r : Request) :
    (coerceFilters s r).Blind := by
  have hkinds : (columnKinds s (.text r.project) (.text r.collection)).Blind := by
    refine blind_ofOutcome_bind fun st => ?_
    exact (Client.blind_fetch hs st).bind fun _ => .done
  unfold coerceFilters
  split
  · exact .done
  · refine hkinds.bind fun kinds => ?_
    exact blind_ofOutcome_bind fun _ => .done

theorem blind_compile (hs : s.exposeErrors = false) (r : Request) (now : DateTime) :
    (compile s r now).Blind := by
  have hstats : (outlierStatistics s r).Blind := by
    unfold outlierStatistics
    split
    · exact .done
    · exact (Statistics.blind_get hs _ _ _).bind fun _ => .done
  refine blind_ofOutcome_bind fun window => ?_
  exact hstats.bind fun _ => .done

theorem blind_execute (hs : s.exposeErrors = false) (r : Request) (now : DateTime) :
    (execute s r now).Blind := by
  refine (blind_coerceFilters hs r).bind fun r => ?_
  refine (blind_compile hs r now).bind fun st => ?_
  refine (Client.blind_fetch hs st).bind fun rows => ?_
  dsimp only
  split
  · exact blind_ofOutcome_bind fun _ => .done
  · exact .done

theorem blind_run (hs : s.exposeErrors = false) (a : Archetype) (project : String) (p : Params)
    (now : DateTime) : (run s a project p now).Blind := by
  rw [run_eq]
  refine ((Project.blind_enter hs project _).bind fun _ => .done).bind fun _ => ?_
  exact blind_ofOutcome_bind fun r => blind_execute hs r now

end Engine

/-! ## Sessions -/

/-- What can be asked of the program. -/
inductive Action where
  | query (a : Archetype) (project : String) (p : Params) (now : DateTime)
  | view (project : String) (p : History.Params) (today : Date)
  | list (project : String) (masterKey : Option String)
  | fetch (st : Statement)
  | fetchOne (st : Statement)
  | read (key : String)
  | write (key : String) (v : Value)

/-- What the program gives back. -/
inductive Reply where
  | value (v : Value)
  | view (v : Rollup.View)
  | listing (collections : List (String × List ColumnInfo))
  | rows (rows : List Record)
  | row (row : Option Record)
  | document (fields : Option Record)
  | stored

namespace Action

def run (s : Settings) : Action → Run Reply
  | query a project p now => (Engine.run s a project p now).bind fun v => .done (.ok (.value v))
  | view project p today => (History.view s project p today).bind fun v => .done (.ok (.view v))
  | list project masterKey =>
    (Listing.list s project masterKey).bind fun l => .done (.ok (.listing l))
  | fetch st => (Client.fetch s st).bind fun rows => .done (.ok (.rows rows))
  | fetchOne st => (Client.fetchOne s st).bind fun row => .done (.ok (.row row))
  | read key => (Client.read s key).bind fun fields => .done (.ok (.document fields))
  | write key v => (Client.write s key v).bind fun _ => .done (.ok .stored)

theorem blind {s : Settings} (hs : s.exposeErrors = false) (a : Action) : (a.run s).Blind := by
  cases a with
  | query a project p now => exact (Engine.blind_run hs a project p now).bind fun _ => .done
  | view project p today => exact (History.blind_view hs project p today).bind fun _ => .done
  | list project masterKey => exact (Listing.blind_list hs project masterKey).bind fun _ => .done
  | fetch st => exact (Client.blind_fetch hs st).bind fun _ => .done
  | fetchOne st => exact (Client.blind_fetchOne hs st).bind fun _ => .done
  | read key => exact (Client.blind_read hs key).bind fun _ => .done
  | write key v => exact (Client.blind_write hs key v).bind fun _ => .done

end Action

/-- What happens in a session: the program is asked for something, or its backend changes. -/
inductive Event where
  | ask (a : Action)
  | change (b : Backend)

/-- Events that differ in the kinds and the words of outages only. -/
inductive Event.Alike : Event → Event → Prop where
  | ask {a : Action} : Alike (.ask a) (.ask a)
  | change {b b' : Backend} : b.Alike b' → Alike (.change b) (.change b')

/-- What a session shows: the outcome and the calls of everything that was asked for. -/
def session (s : Settings) : Backend → List Event → List (Outcome Reply × List Call)
  | _, [] => []
  | b, .ask a :: rest =>
    let t := b.execute (a.run s)
    (t.outcome, t.calls) :: session s t.backend rest
  | _, .change b :: rest => session s b rest

/-- Where the words of backends are hidden, a session does not tell one outage from another. -/
theorem session_alike {s : Settings} (hs : s.exposeErrors = false) {b b' : Backend}
    {events events' : List Event} (hb : b.Alike b')
    (hevents : List.Forall₂ Event.Alike events events') :
    session s b events = session s b' events' := by
  induction hevents generalizing b b' with
  | nil => rfl
  | cons hevent _ ih =>
    cases hevent with
    | @ask a =>
      obtain ⟨houtcome, hcalls, hafter⟩ := (a.blind hs).execute_alike hb
      simp only [session]
      rw [houtcome, hcalls, ih hafter]
    | change hchange => exact ih hchange

/-! ## Two ways to fail -/

/-- Settings that hide the words of backends. -/
def discreet : Settings := { Engine.patient with exposeErrors := false }

/-- A backend without content that fails when rows are asked for. -/
def failing (o : Outage) : Backend where
  outages := [(.rows, o)]

def crash : Outage := ⟨.statement, "division by zero"⟩

def closure : Outage := ⟨.connection, "the pool is closed"⟩

/-- Someone looks at the cache and then at a table. -/
def visit : List Event :=
  [.ask (.read "p1_measurements_t"), .ask (.fetch ⟨"SELECT * FROM \"p1_measurements\"", []⟩)]

/-- The two are told apart only where the words of backends are shown. -/
theorem session_alike_visit :
    session discreet (failing crash) visit = session discreet (failing closure) visit ∧
      (session Engine.patient (failing crash) visit).map (·.1) =
        [.ok (.document none), .error (.badQuery (.backend "division by zero"))] ∧
      (session Engine.patient (failing closure) visit).map (·.1) =
        [.ok (.document none), .error (.badQuery (.backend "the pool is closed"))] := by
  refine ⟨?_, ?_, ?_⟩
  · refine session_alike rfl ⟨rfl, rfl, rfl, rfl, rfl, .cons ⟨rfl, ?_, ?_⟩ .nil⟩
      (.cons .ask (.cons .ask .nil))
    · exact fun h => by cases h
    · exact fun h => by cases h
  · rfl
  · rfl

end EventQuery
