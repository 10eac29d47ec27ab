import EventQuery.Proofs.Engine.Compile
import EventQuery.Proofs.Run.Interleaving
import EventQuery.Proofs.Statement.Source
import EventQuery.Proofs.Statistics.Steps

/-!
# EventQuery.Proofs.Statistics.Concurrent

Callers who ask for statistics at the same time. Each reads the cache; who finds nothing there has
the store compute the statistics and writes them into the cache. Several may miss together and
overwrite each other, and the store may compute something else each time. `Phase` is how far one
caller is; what a caller does is independent of the others but for the answer of its read. From that
`orderly` follows for every interleaving: whoever gets statistics has computed them or has them from
another caller who has, for the very same property.
-/

namespace EventQuery

namespace Statistics

/-- A property whose statistics are asked for. -/
structure Ask where
  project : String
  collection : String
  property : String

namespace Ask

def key (a : Ask) : String := Name.statsKey a.project a.collection a.property

def statement (a : Ask) : Outcome Statement :=
  Statement.statistics (.text a.project) (.text a.collection) (.text a.property)

def run (s : Settings) (a : Ask) : Run Statistics :=
  get s (.text a.project) (.text a.collection) (.text a.property)

/-- Names that have a statement are accepted, and no other names have their key. -/
theorem eq_of_key_eq {a b : Ask} {st : Statement} (h : a.statement = .ok st)
    (hkey : b.key = a.key) : b = a := by
  obtain ⟨_, _, _, hproject, hcollection, hproperty, hp, hc, hx, _⟩ := Statement.ofText_statistics h
  obtain ⟨project, collection, property⟩ := a
  cases hproject
  cases hcollection
  cases hproperty
  obtain ⟨rfl, rfl, rfl⟩ := Name.Place.eq_of_statsKey_eq ⟨_, _, _, hp, hc, hx⟩ hkey
  rfl

end Ask

/-! ## One caller -/

/-- The calls of a caller so far, the last first, and what it has left to do. -/
inductive Phase (s : Settings) (a : Ask) : List Exchange → Run Statistics → Prop where
  | asking : Phase s a [] (a.run s)
  | found {text : String} {stats : Statistics} : Holds a.key text stats →
      Phase s a [.get a.key (.ok (some text))] (.done (.ok stats))
  | unreadable {text : String} {e : Failure} : (∀ stats, ¬Holds a.key text stats) →
      Phase s a [.get a.key (.ok (some text))] (.done (.error e))
  | refused {e : Failure} : a.statement = .error e →
      Phase s a [.get a.key (.ok none)] (.done (.error e))
  | missing {st : Statement} : a.statement = .ok st →
      Phase s a [.get a.key (.ok none)] (measure s a.key st)
  | malformed {st : Statement} {rows : List Record} {e : Failure} : a.statement = .ok st →
      ofRows? rows = none →
      Phase s a [.statement st (.ok rows), .get a.key (.ok none)] (.done (.error e))
  | measured {st : Statement} {rows : List Record} {stats : Statistics} : a.statement = .ok st →
      ofRows? rows = some stats →
      Phase s a [.statement st (.ok rows), .get a.key (.ok none)] (keep s a.key stats)
  | kept {st : Statement} {rows : List Record} {stats : Statistics} : a.statement = .ok st →
      ofRows? rows = some stats →
      Phase s a [.set a.key stats.text (.ok ()), .statement st (.ok rows), .get a.key (.ok none)]
        (.done (.ok stats))

variable {s : Settings} {a : Ask}

theorem run_eq_get (htime : Client.isOutOfTime s = false) (a : Ask) :
    ∃ next, a.run s = .get a.key next ∧
      next (.ok none) = (Run.ofOutcome a.statement).bind (measure s a.key) ∧
      ∀ text, (∃ stats, Holds a.key text stats ∧ next (.ok (some text)) = .done (.ok stats)) ∨
        ∃ e, (∀ stats, ¬Holds a.key text stats) ∧ next (.ok (some text)) = .done (.error e) := by
  obtain ⟨next, hread, hnone, hsome⟩ := Client.read_eq_get htime a.key
  have hrun : a.run s = (Client.read s a.key).bind fun cached =>
      cached.elim ((Run.ofOutcome a.statement).bind (measure s a.key)) (reuse a.key) :=
    get_eq _ _ _ _
  rw [hrun, hread]
  refine ⟨_, rfl, by rw [hnone]; rfl, fun text => ?_⟩
  rw [hsome]
  cases hdocument : Client.document a.key text with
  | error e =>
    refine .inr ⟨e, fun stats hholds => ?_, rfl⟩
    obtain ⟨_, hfields, _⟩ := hholds
    cases hdocument.symm.trans hfields
  | ok fields =>
    dsimp only [Except.map, Run.done_ok_bind, Option.elim]
    unfold reuse
    cases hstats : ofRecord? fields with
    | some stats => exact .inl ⟨stats, ⟨fields, hdocument, hstats⟩, rfl⟩
    | none =>
      refine .inr ⟨.badQuery (.cachedStatistics a.key), fun stats hholds => ?_, rfl⟩
      obtain ⟨fields', hfields, hstats'⟩ := hholds
      cases hdocument.symm.trans hfields
      cases hstats.symm.trans hstats'

theorem keep_eq_set (htime : Client.isOutOfTime s = false) (key : String) (stats : Statistics) :
    ∃ next, keep s key stats = .set key stats.text next ∧ next (.ok ()) = .done (.ok stats) := by
  obtain ⟨next, hwrite, hnext⟩ := Client.write_eq_set htime key stats.text?_toRecord
  rw [keep, hwrite]
  exact ⟨_, rfl, by rw [hnext]; rfl⟩

theorem measure_eq_statement (s : Settings) (key : String) (st : Statement) :
    ∃ next, measure s key st = .statement st next ∧ ∀ rows,
      (∃ stats, ofRows? rows = some stats ∧ next (.ok rows) = keep s key stats) ∨
        ofRows? rows = none ∧ next (.ok rows) = .done (.error (.fault .malformed)) := by
  refine ⟨_, rfl, fun rows => ?_⟩
  show (∃ stats, _ ∧ judge s key (rows.map Client.decodeRecord).head? = _) ∨
    _ ∧ judge s key (rows.map Client.decodeRecord).head? = _
  unfold judge ofRows?
  cases ofRecord? ((rows.map Client.decodeRecord).head?.getD []) with
  | none => exact .inr ⟨rfl, rfl⟩
  | some stats => exact .inl ⟨stats, rfl, rfl⟩

theorem Phase.calls (htime : Client.isOutOfTime s = false) {xs : List Exchange}
    {r r' : Run Statistics} {documents documents' : List (String × String)} {x : Exchange}
    (h : Phase s a xs r) (hcalls : r.Calls documents x documents' r') : Phase s a (x :: xs) r' := by
  cases h with
  | asking =>
    obtain ⟨next, hrun, hnone, hsome⟩ := run_eq_get htime a
    rw [hrun] at hcalls
    cases hcalls
    cases documents.lookup a.key with
    | none =>
      rw [hnone]
      cases hst : a.statement with
      | error e => exact .refused hst
      | ok st => exact .missing hst
    | some text =>
      rcases hsome text with ⟨stats, hholds, hnext⟩ | ⟨e, hholds, hnext⟩
      · rw [hnext]
        exact .found hholds
      · rw [hnext]
        exact .unreadable hholds
  | missing hst =>
    obtain ⟨next, hmeasure, hnext⟩ := measure_eq_statement s a.key _
    rw [hmeasure] at hcalls
    cases hcalls with
    | statement rows =>
      rcases hnext rows with ⟨stats, hrows, hnext⟩ | ⟨hrows, hnext⟩
      · rw [hnext]
        exact .measured hst hrows
      · rw [hnext]
        exact .malformed hst hrows
  | measured hst hrows =>
    obtain ⟨next, hkeep, hnext⟩ := keep_eq_set htime a.key _
    rw [hkeep] at hcalls
    cases hcalls
    rw [hnext]
    exact .kept hst hrows
  | found => cases hcalls
  | unreadable => cases hcalls
  | refused => cases hcalls
  | malformed => cases hcalls
  | kept => cases hcalls

/-- With these calls a caller has computed these statistics: the store answered with them. -/
def Ask.Computes (a : Ask) (xs : List Exchange) (stats : Statistics) : Prop :=
  ∃ st rows, a.statement = .ok st ∧ .statement st (.ok rows) ∈ xs ∧ ofRows? rows = some stats

namespace Phase

variable {xs : List Exchange} {r : Run Statistics} {stats : Statistics}

theorem length_le (h : Phase s a xs r) : xs.length ≤ 3 := by
  cases h <;> simp

/-- What is written was computed. -/
theorem computes_of_set {key text : String} {answer : Except Outage Unit} (h : Phase s a xs r)
    (hmem : .set key text answer ∈ xs) :
    key = a.key ∧ ∃ stats, text = stats.text ∧ a.Computes xs stats := by
  cases h with
  | asking | found | unreadable | refused | missing | malformed | measured => simp at hmem
  | @kept st rows stats hst hrows =>
    obtain ⟨rfl, rfl, _⟩ : key = a.key ∧ text = stats.text ∧ answer = .ok () := by simpa using hmem
    exact ⟨rfl, stats, rfl, st, rows, hst, by simp, hrows⟩

/-- Who has found a document makes no other call. -/
theorem eq_of_found {key text : String} (h : Phase s a xs r)
    (hmem : .get key (.ok (some text)) ∈ xs) : xs = [.get key (.ok (some text))] := by
  cases h with
  | asking | refused | missing | malformed | measured | kept => simp at hmem
  | found | unreadable => rw [List.mem_singleton.mp hmem]

theorem not_asking {o : Outcome Statistics} (htime : Client.isOutOfTime s = false) :
    a.run s ≠ .done o := by
  obtain ⟨next, hrun, _⟩ := run_eq_get htime a
  rw [hrun]
  intro h
  cases h

theorem not_measured {o : Outcome Statistics} (htime : Client.isOutOfTime s = false) :
    keep s a.key stats ≠ .done o := by
  obtain ⟨next, hkeep, _⟩ := keep_eq_set htime a.key stats
  rw [hkeep]
  intro h
  cases h

theorem computes_or_found (htime : Client.isOutOfTime s = false)
    (h : Phase s a xs (.done (.ok stats))) :
    a.Computes xs stats ∨ ∃ text, .get a.key (.ok (some text)) ∈ xs ∧ Holds a.key text stats := by
  generalize hr : Run.done (.ok stats) = r at h
  cases h with
  | asking => exact absurd hr.symm (not_asking htime)
  | measured => exact absurd hr.symm (not_measured htime)
  | missing => cases hr
  | unreadable | refused | malformed => cases hr
  | found hholds =>
    cases hr
    exact .inr ⟨_, by simp, hholds⟩
  | kept hst hrows =>
    cases hr
    exact .inl ⟨_, _, hst, by simp, hrows⟩

/-- The reasons to fail: the names, a document that nobody wrote here, or the rows. -/
theorem failed {e : Failure} (htime : Client.isOutOfTime s = false)
    (h : Phase s a xs (.done (.error e))) :
    a.statement = .error e ∨
      (∃ text, .get a.key (.ok (some text)) ∈ xs ∧ ∀ stats, ¬Holds a.key text stats) ∨
      ∃ st rows, a.statement = .ok st ∧ .statement st (.ok rows) ∈ xs ∧ ofRows? rows = none := by
  generalize hr : Run.done (.error e) = r at h
  cases h with
  | asking => exact absurd hr.symm (not_asking htime)
  | measured => exact absurd hr.symm (not_measured htime)
  | missing => cases hr
  | found | kept => cases hr
  | unreadable hholds => exact .inr (.inl ⟨_, by simp, hholds⟩)
  | refused hst =>
    cases hr
    exact .inl hst
  | malformed hst hrows => exact .inr (.inr ⟨_, _, hst, by simp, hrows⟩)

end Phase

/-! ## All callers -/

variable {ι : Type} [DecidableEq ι]

/-- What holds of callers at any time, whatever the order of their calls. -/
structure Orderly (asks : ι → Ask) (c : Crowd ι Statistics) : Prop where
  /-- A document that was written holds what its writer has computed for the property of the key. -/
  written : ∀ j key text answer, (j, .set key text answer) ∈ c.history →
    key = (asks j).key ∧ (∀ a : Ask, a.key = key → a = asks j) ∧
      ∃ stats, Holds key text stats ∧ (asks j).Computes (c.own j) stats
  /-- A document that can be found was written. -/
  present : ∀ i text, c.documents.lookup (asks i).key = some text →
    ∃ j, (j, .set (asks i).key text (.ok ())) ∈ c.history
  /-- Documents do not go away. -/
  lasting : ∀ c' key, c.Reaches c' → c.documents.lookup key ≠ none →
    c'.documents.lookup key ≠ none
  /-- A caller returns what it has computed, or what another had written before it read. -/
  returned : ∀ i stats, c.runs i = .done (.ok stats) → (asks i).Computes (c.own i) stats ∨
    ∃ j text later earlier,
      c.history = later ++ (i, .get (asks i).key (.ok (some text))) :: earlier ∧
      (j, .set (asks i).key text (.ok ())) ∈ earlier ∧ j ≠ i ∧ asks j = asks i ∧
      Holds (asks i).key text stats ∧ (asks j).Computes (c.own j) stats
  /-- A caller fails only for its names, or for rows that hold no statistics. -/
  failed : ∀ i e, c.runs i = .done (.error e) → (asks i).statement = .error e ∨
    ∃ st rows, (asks i).statement = .ok st ∧ .statement st (.ok rows) ∈ c.own i ∧
      ofRows? rows = none
  /-- A caller who reads after a first write sends no statement. -/
  late : ∀ i key answer later earlier j text,
    c.history = later ++ (i, .get key answer) :: earlier →
      (j, .set key text (.ok ())) ∈ earlier → ∀ st rows, (i, .statement st rows) ∉ c.history
  /-- A caller makes three calls at most, and the next one whenever it is not done. -/
  progress : ∀ i, (c.own i).length ≤ 3 ∧
    ((∃ o, c.runs i = .done o) ∨
      ∃ x documents r, (c.runs i).Calls c.documents x documents r)

section Reached

variable {asks : ι → Ask} {documents : List (String × String)} {c : Crowd ι Statistics}

/-- Whatever the order of the calls, each caller is in one of its phases. -/
theorem phase_of_reaches (htime : Client.isOutOfTime s = false)
    (h : Crowd.Reaches (.start documents fun i => (asks i).run s) c) :
    ∀ i, Phase s (asks i) (c.own i) (c.runs i) :=
  h.own (fun _ => .asking) fun _ _ _ _ _ _ _ hp hcalls => hp.calls htime hcalls

variable (hphase : ∀ i, Phase s (asks i) (c.own i) (c.runs i))
include hphase

theorem computes_of_written {j : ι} {key text : String} {answer : Except Outage Unit}
    (hmem : (j, .set key text answer) ∈ c.history) :
    key = (asks j).key ∧ (∀ a : Ask, a.key = key → a = asks j) ∧
      ∃ stats, Holds key text stats ∧ (asks j).Computes (c.own j) stats := by
  obtain ⟨rfl, stats, rfl, st, rows, hst, hrows⟩ :=
    (hphase j).computes_of_set (Crowd.mem_own.mpr hmem)
  exact ⟨rfl, fun a ha => Ask.eq_of_key_eq hst ha, stats, holds_text _ stats, st, rows, hst, hrows⟩

/-- Who has read a document is not the one who wrote it. -/
theorem ne_of_found {i j : ι} {key text key' text' : String} {answer : Except Outage Unit}
    (hfound : .get key (.ok (some text)) ∈ c.own i)
    (hset : (j, .set key' text' answer) ∈ c.history) : j ≠ i := by
  rintro rfl
  have hown := Crowd.mem_own.mpr hset
  rw [(hphase j).eq_of_found hfound] at hown
  simp at hown

theorem no_statement_of_found {i : ι} {key text : String}
    (hfound : .get key (.ok (some text)) ∈ c.own i) (st : Statement)
    (rows : Except Outage (List Record)) : (i, .statement st rows) ∉ c.history := by
  intro hmem
  have hown := Crowd.mem_own.mpr hmem
  rw [(hphase i).eq_of_found hfound] at hown
  simp at hown

omit hphase

variable (hempty : ∀ i, documents.lookup (asks i).key = none)
  (h : Crowd.Reaches (.start documents fun i => (asks i).run s) c)
include hempty h

/-- No document was there at the start: one that can be found was written by a caller. -/
theorem written_of_present {i : ι} {text : String}
    (hlookup : c.documents.lookup (asks i).key = some text) :
    ∃ j, (j, .set (asks i).key text (.ok ())) ∈ c.history := by
  rw [h.coherent.1] at hlookup
  exact (Crowd.written_of_lookup hlookup).resolve_left (by simp [hempty i])

/-- A document that was read had been written before. -/
theorem written_of_found {i : ι} {text : String}
    (hmem : .get (asks i).key (.ok (some text)) ∈ c.own i) :
    ∃ j later earlier, c.history = later ++ (i, .get (asks i).key (.ok (some text))) :: earlier ∧
      (j, .set (asks i).key text (.ok ())) ∈ earlier := by
  obtain ⟨later, earlier, hhistory⟩ := List.append_of_mem (Crowd.mem_own.mp hmem)
  have hlookup : (Crowd.contents documents earlier).lookup (asks i).key = some text :=
    (Except.ok.inj (h.coherent.2 later i _ _ earlier hhistory)).symm
  obtain ⟨j, hj⟩ := (Crowd.written_of_lookup hlookup).resolve_left (by simp [hempty i])
  exact ⟨j, later, earlier, hhistory, hj⟩

end Reached

theorem orderly (asks : ι → Ask) (htime : Client.isOutOfTime s = false)
    {documents : List (String × String)} {c : Crowd ι Statistics}
    (hempty : ∀ i, documents.lookup (asks i).key = none)
    (h : Crowd.Reaches (.start documents fun i => (asks i).run s) c) : Orderly asks c := by
  have hphase := phase_of_reaches htime h
  refine ⟨fun _ _ _ _ => computes_of_written hphase, fun _ _ => written_of_present hempty h,
    fun c' key hreach => hreach.lookup_ne_none, ?returned, ?failed, ?late,
    fun i => ⟨(hphase i).length_le, ?progress⟩⟩
  case returned =>
    intro i stats hdone
    have hp := hphase i
    rw [hdone] at hp
    rcases hp.computes_or_found htime with hcomputes | ⟨text, hmem, hholds⟩
    · exact .inl hcomputes
    · obtain ⟨j, later, earlier, hhistory, hj⟩ := written_of_found hempty h hmem
      have hset : (j, .set (asks i).key text (.ok ())) ∈ c.history := by simp [hhistory, hj]
      obtain ⟨_, hsame, stats', hholds', hcomputes⟩ := computes_of_written hphase hset
      obtain rfl := hholds.unique hholds'
      exact .inr ⟨j, text, later, earlier, hhistory, hj, ne_of_found hphase hmem hset,
        (hsame _ rfl).symm, hholds, hcomputes⟩
  case failed =>
    intro i e hdone
    have hp := hphase i
    rw [hdone] at hp
    rcases hp.failed htime with hst | ⟨text, hmem, hholds⟩ | hrows
    · exact .inl hst
    · obtain ⟨j, _, _, hhistory, hj⟩ := written_of_found hempty h hmem
      obtain ⟨_, _, stats, hstats, _⟩ := computes_of_written hphase (j := j)
        (by rw [hhistory]; exact List.mem_append_right _ (List.mem_cons_of_mem _ hj))
      exact absurd hstats (hholds stats)
    · exact .inr hrows
  case late =>
    intro i key answer later earlier j text hhistory hj
    have hanswer := h.coherent.2 later i key answer earlier hhistory
    have hget : .get key answer ∈ c.own i := Crowd.mem_own.mpr (by rw [hhistory]; simp)
    cases hlookup : (Crowd.contents documents earlier).lookup key with
    | none => exact absurd hlookup (Crowd.lookup_of_written hj)
    | some found =>
      rw [hanswer, hlookup] at hget
      exact no_statement_of_found hphase hget
  case progress =>
    by_cases hdone : ∃ o, c.runs i = .done o
    · exact .inl hdone
    · exact .inr ((c.runs i).calls_of_not_done c.documents fun o ho => hdone ⟨o, ho⟩)

/-! ## A race -/

/-- Three callers who ask for the same. -/
def voltages : Fin 3 → Ask := fun _ => ⟨"p1", "measurements", "voltage"⟩

/-- Two of them find no document and compute different statistics. The second overwrites what the
first has written, and the third finds the statistics of the second. -/
theorem orderly_race : ∃ c : Crowd (Fin 3) Statistics,
    Crowd.Reaches (.start [] fun i => (voltages i).run Engine.patient) c ∧ Orderly voltages c ∧
      c.runs 0 = .done (.ok Engine.zeros) ∧ c.runs 1 = .done (.ok ⟨none, none⟩) ∧
      c.own 2 = [.get "p1_measurements_voltage" (.ok (some (text ⟨none, none⟩)))] := by
  have h : Crowd.Reaches (.start [] fun i => (voltages i).run Engine.patient) _ :=
    .tail (.tail (.tail (.tail (.tail (.tail (.tail .refl
      (.call (i := 0) .get)) (.call (i := 1) .get))
      (.call (i := 0) (.statement [[("mean", .float .zero), ("stddev", .float .zero)]])))
      (.call (i := 0) .set)) (.call (i := 1) (.statement []))) (.call (i := 1) .set))
      (.call (i := 2) .get)
  exact ⟨_, h, orderly voltages rfl (fun _ => rfl) h, rfl, rfl, rfl⟩

end Statistics
end EventQuery
