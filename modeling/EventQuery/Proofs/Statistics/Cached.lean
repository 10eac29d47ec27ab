import EventQuery.Backend.Memory
import EventQuery.Proofs.Engine.Compile
import EventQuery.Proofs.Statistics.Steps

/-!
# EventQuery.Proofs.Statistics.Cached

Statistics against a backend. Asking for them leaves the backend as it is, unless they are computed:
then their document goes into the cache and nothing else changes (`got_get`). As long as nobody else
writes under the key (`Later`), everyone who asks gets the statistics that were computed first, from
the cache alone (`execute_get_later`), whatever has become of the store.
-/

namespace EventQuery

open Backend

/-- The backend with a document in its cache. -/
def Backend.stored (b : Backend) (key text : String) : Backend :=
  { b with documents := Assoc.set key text b.documents }

/-! ## Calls -/

namespace Client

variable {s : Settings} {b : Backend}

theorem execute_read_of_lookup {key text : String} {fields : Record}
    (htime : isOutOfTime s = false) (houtage : b.outage? .get = none)
    (hlookup : b.documents.lookup key = some text) (hdocument : document key text = .ok fields) :
    execute b (read s key) = ⟨.ok (some fields), b, [.get key]⟩ := by
  simp [read, htime, execute, houtage, hlookup, hdocument, Trace.sent, Except.map]

/-- Reading a document changes nothing, and without one there is nothing to read. -/
theorem execute_read (s : Settings) (b : Backend) (key : String) :
    (∃ e calls, execute b (read s key) = ⟨.error e, b, calls⟩) ∨
      isOutOfTime s = false ∧ b.outage? .get = none ∧
        (b.documents.lookup key = none ∧
          execute b (read s key) = ⟨.ok none, b, [.get key]⟩ ∨
        ∃ text fields, b.documents.lookup key = some text ∧ document key text = .ok fields ∧
          execute b (read s key) = ⟨.ok (some fields), b, [.get key]⟩) := by
  cases htime : isOutOfTime s with
  | true => exact .inl ⟨cacheTimedOut s, [], by simp [read, htime, Run.fail, execute]⟩
  | false =>
    cases houtage : b.outage? .get with
    | some o =>
      exact .inl ⟨cacheFailure s o, [.get key],
        by simp [read, htime, Run.fail, execute, houtage, Trace.sent]⟩
    | none =>
      cases hlookup : b.documents.lookup key with
      | none =>
        exact .inr ⟨rfl, rfl, .inl ⟨rfl,
          by simp [read, htime, execute, houtage, hlookup, Trace.sent]⟩⟩
      | some text =>
        cases hdocument : document key text with
        | ok fields =>
          exact .inr ⟨rfl, rfl, .inr ⟨text, fields, rfl, hdocument,
            execute_read_of_lookup htime houtage hlookup hdocument⟩⟩
        | error e =>
          exact .inl ⟨e, [.get key],
            by simp [read, htime, execute, houtage, hlookup, hdocument, Trace.sent, Except.map]⟩

theorem execute_fetchOne (s : Settings) (b : Backend) (st : Statement) :
    (∃ e calls, execute b (fetchOne s st) = ⟨.error e, b, calls⟩) ∨
      ∃ row, execute b (fetchOne s st) = ⟨.ok row, b, [.statement st]⟩ := by
  have hfetchOne : fetchOne s st = (fetch s st).bind fun rows => .done (.ok rows.head?) := rfl
  rw [hfetchOne, execute_bind]
  cases hacquire : b.outage? .acquire with
  | some o =>
    exact .inl ⟨storeFailure s o, [],
      by simp [fetch, execute, hacquire, Run.fail, Trace.andThen]⟩
  | none =>
    cases hplace : b.outage? (placeOf st) with
    | some o =>
      exact .inl ⟨storeFailure s o, [.statement st],
        by simp [fetch, execute, hacquire, hplace, Run.fail, Trace.andThen, Trace.sent]⟩
    | none =>
      exact .inr ⟨(b.answer st).head?.map decodeRecord,
        by simp [fetch, execute, hacquire, hplace, Trace.andThen, Trace.sent]⟩

theorem execute_write {v : Value} {text : String} (htext : Json.text? v = some text)
    (s : Settings) (b : Backend) (key : String) :
    (∃ e calls, execute b (write s key v) = ⟨.error e, b, calls⟩) ∨
      execute b (write s key v)
        = ⟨.ok (), b.stored key text, [.set key text]⟩ := by
  cases htime : isOutOfTime s with
  | true => exact .inl ⟨cacheTimedOut s, [], by simp [write, htext, htime, Run.fail, execute]⟩
  | false =>
    cases houtage : b.outage? .set with
    | some o =>
      exact .inl ⟨cacheFailure s o, [.set key text],
        by simp [write, htext, htime, Run.fail, execute, houtage, Trace.sent]⟩
    | none =>
      exact .inr (by simp [write, htext, htime, execute, houtage, Trace.sent, stored])

end Client

namespace Statistics

variable {s : Settings} {b : Backend} {key : String} {stats : Statistics}

/-! ## Asking for statistics -/

/-- What comes of asking for statistics. -/
inductive Got (s : Settings) (b : Backend) (key : String) : Trace Statistics → Prop where
  | failed {e : Failure} {calls : List Call} : Got s b key ⟨.error e, b, calls⟩
  | cached {text : String} {fields : Record} {stats : Statistics} :
      b.documents.lookup key = some text → Client.document key text = .ok fields →
      ofRecord? fields = some stats → Got s b key ⟨.ok stats, b, [.get key]⟩
  | computed {st : Statement} {stats : Statistics} :
      Client.isOutOfTime s = false → b.documents.lookup key = none →
      Got s b key ⟨.ok stats, b.stored key stats.text,
        [.get key, .statement st, .set key stats.text]⟩

theorem got_get (s : Settings) (b : Backend) (project collection property : Value) :
    Got s b (keyOf project collection property)
      (execute b (get s project collection property)) := by
  rw [get_eq, execute_bind]
  generalize keyOf project collection property = key
  -- only the last of the three calls can change anything, and it comes after a miss
  rcases Client.execute_read s b key with ⟨e, calls, hread⟩ |
    ⟨htime, houtage, ⟨hlookup, hread⟩ | ⟨text, fields, hlookup, hdocument, hread⟩⟩
  · rw [hread]
    exact .failed
  · rw [hread]
    dsimp only [Trace.andThen, Option.elim]
    cases Statement.statistics project collection property with
    | error e => exact .failed
    | ok st =>
      rw [execute_bind]
      show Got s b key { (execute b (measure s key st)) with
        calls := .get key :: (execute b (measure s key st)).calls }
      rw [measure, execute_bind]
      rcases Client.execute_fetchOne s b st with ⟨e, calls, hfetch⟩ | ⟨row, hfetch⟩
      · rw [hfetch]
        exact .failed
      · rw [hfetch]
        dsimp only [Trace.andThen]
        unfold judge
        cases ofRecord? (row.getD []) with
        | none => exact .failed
        | some computed =>
          dsimp only
          rw [keep, execute_bind]
          rcases Client.execute_write computed.text?_toRecord s b key with
            ⟨e, calls, hwrite⟩ | hwrite
          · rw [hwrite]
            exact .failed
          · rw [hwrite]
            exact .computed htime hlookup
  · rw [hread]
    dsimp only [Trace.andThen, Option.elim]
    unfold reuse
    cases hfound : ofRecord? fields with
    | none => exact .failed
    | some found => exact .cached hlookup hdocument hfound

/-! ## Later on -/

/-- The backend as it may be later: others ask for statistics of any kind, and anything changes but
the document under one key. -/
inductive Later (s : Settings) (key : String) (b : Backend) : Backend → Prop where
  | now : Later s key b b
  | changed {later after : Backend} : Later s key b later →
      after.documents.lookup key = later.documents.lookup key → Later s key b after
  | asked {later : Backend} (project collection property : Value) : Later s key b later →
      Later s key b (execute later (get s project collection property)).backend

theorem Got.lookup_eq {other : String} {t : Trace Statistics} (h : Got s b other t)
    (hne : key ≠ other) : t.backend.documents.lookup key = b.documents.lookup key := by
  cases h with
  | failed => rfl
  | cached => rfl
  | computed => exact Assoc.lookup_set_of_ne hne _ _

/-- Statistics that are in the cache are not computed again. -/
theorem Got.lookup_of_some {text other : String} {t : Trace Statistics} (h : Got s b other t)
    (hkey : b.documents.lookup key = some text) :
    t.backend.documents.lookup key = some text := by
  by_cases hne : key = other
  · subst hne
    cases h with
    | failed => exact hkey
    | cached => exact hkey
    | computed _ hnone =>
      rw [hkey] at hnone
      cases hnone
  · exact (h.lookup_eq hne).trans hkey

theorem Later.lookup {later : Backend} {text : String} (h : Later s key b later)
    (hkey : b.documents.lookup key = some text) : later.documents.lookup key = some text := by
  induction h with
  | now => exact hkey
  | changed _ hsame ih => exact hsame.trans ih
  | asked project collection property _ ih => exact (got_get s _ _ _ _).lookup_of_some ih

/-- Whoever asks for statistics that are in the cache gets them from there alone. -/
theorem execute_get_of_lookup {project collection property : Value}
    (htime : Client.isOutOfTime s = false) (houtage : b.outage? .get = none)
    (hlookup : b.documents.lookup (keyOf project collection property) = some stats.text) :
    execute b (get s project collection property)
      = ⟨.ok stats, b, [.get (keyOf project collection property)]⟩ := by
  have hread := Client.execute_read_of_lookup htime houtage hlookup (stats.document_toRecord _)
  rw [get_eq, execute_bind, hread]
  dsimp only [Trace.andThen, Option.elim]
  rw [reuse, ofRecord?_toRecord]
  rfl

theorem execute_get_later {after later : Backend} {project collection property : Value}
    (htime : Client.isOutOfTime s = false)
    (hlookup : after.documents.lookup (keyOf project collection property) = some stats.text)
    (hlater : Later s (keyOf project collection property) after later)
    (houtage : later.outage? .get = none) :
    execute later (get s project collection property)
      = ⟨.ok stats, later, [.get (keyOf project collection property)]⟩ :=
  execute_get_of_lookup htime houtage (hlater.lookup hlookup)

/-! ## Requests -/

/-- What follows a run and sends no calls comes to the same if the run does. -/
theorem outcome_bind_eq {α β : Type} {b b' : Backend} {r : Run α} {f : α → Run β}
    (hr : (execute b r).outcome = (execute b' r).outcome)
    (hf : ∀ a b b', (execute b (f a)).outcome = (execute b' (f a)).outcome) :
    (execute b (r.bind f)).outcome = (execute b' (r.bind f)).outcome := by
  rw [execute_bind, execute_bind, Trace.andThen, Trace.andThen, hr]
  cases (execute b' r).outcome with
  | ok a => exact hf a _ _
  | error e => rfl

/-- The statement of a request depends on the backend only through the statistics of its band. -/
theorem outcome_compile_eq {b b' : Backend} {r : Request} {property : String} {now : DateTime}
    (hband : Engine.bandProperty r = some property)
    (hsame : (execute b (get s (.text r.project) (.text r.collection) (.text property))).outcome
      = (execute b' (get s (.text r.project) (.text r.collection) (.text property))).outcome) :
    (execute b (Engine.compile s r now)).outcome = (execute b' (Engine.compile s r now)).outcome := by
  have hstats : (execute b (Engine.outlierStatistics s r)).outcome
      = (execute b' (Engine.outlierStatistics s r)).outcome := by
    unfold Engine.outlierStatistics
    rw [hband]
    exact outcome_bind_eq hsame fun _ _ _ => rfl
  unfold Engine.compile
  cases Timeframe.resolve (.ofText? r.timeframe) now with
  | error e => rfl
  | ok window =>
    show (execute b ((Engine.outlierStatistics s r).bind _)).outcome
      = (execute b' ((Engine.outlierStatistics s r).bind _)).outcome
    exact outcome_bind_eq hstats fun _ _ _ => rfl

/-! ## Computed once -/

/-- Statistics that have been computed are kept: their document is in the cache and nothing else is
new there. From then on everyone gets them without a statement, and requests that need them are
made as before. -/
structure Kept (s : Settings) (project collection property : String) (stats : Statistics)
    (before after : Backend) : Prop where
  reads_back : ∃ text fields,
    after.documents.lookup (Name.statsKey project collection property) = some text ∧
      Client.document (Name.statsKey project collection property) text = .ok fields ∧
      ofRecord? fields = some stats
  elsewhere : ∀ key, key ≠ Name.statsKey project collection property →
    after.documents.lookup key = before.documents.lookup key
  again : ∀ later, Later s (Name.statsKey project collection property) after later →
    later.outage? .get = none →
      execute later (get s (.text project) (.text collection) (.text property))
        = ⟨.ok stats, later, [.get (Name.statsKey project collection property)]⟩
  requests : ∀ later, Later s (Name.statsKey project collection property) after later →
    later.outage? .get = none → ∀ r now, r.project = project → r.collection = collection →
      Engine.bandProperty r = some property →
        (execute later (Engine.compile s r now)).outcome
          = (execute before (Engine.compile s r now)).outcome

/-- Statistics that are not in the cache are computed and kept, or else nothing changes. -/
theorem get_kept_or_unchanged (s : Settings) (b : Backend) (project collection property : String) :
    (∀ stats, b.documents.lookup (Name.statsKey project collection property) = none →
      (execute b (get s (.text project) (.text collection) (.text property))).outcome = .ok stats →
      Kept s project collection property stats b
        (execute b (get s (.text project) (.text collection) (.text property))).backend) ∧
    ∀ e, (execute b (get s (.text project) (.text collection) (.text property))).outcome
        = .error e →
      (execute b (get s (.text project) (.text collection) (.text property))).backend = b := by
  have hgot := got_get s b (.text project) (.text collection) (.text property)
  refine ⟨fun stats hmissing houtcome => ?computed, fun e houtcome => ?failed⟩
  case computed =>
    have hcold := houtcome
    generalize execute b (get s (.text project) (.text collection) (.text property)) = t
      at hgot houtcome
    cases hgot with
    | failed => cases houtcome
    | cached hlookup =>
      cases hlookup.symm.trans hmissing
    | computed htime =>
      cases houtcome
      have hself : (b.stored (keyOf (.text project) (.text collection) (.text property))
          stats.text).documents.lookup (keyOf (.text project) (.text collection) (.text property))
          = some stats.text := Assoc.lookup_set_self _ _ _
      refine ⟨⟨stats.text, stats.toRecord, hself, stats.document_toRecord _,
        stats.ofRecord?_toRecord⟩, fun key hkey => Assoc.lookup_set_of_ne hkey _ _,
        fun later hlater houtage => execute_get_later htime hself hlater houtage, ?_⟩
      rintro later hlater houtage r now rfl rfl hband
      refine outcome_compile_eq hband ?_
      rw [execute_get_later htime hself hlater houtage, hcold]
  case failed =>
    generalize execute b (get s (.text project) (.text collection) (.text property)) = t
      at hgot houtcome
    cases hgot with
    | failed => rfl
    | cached => rfl
    | computed => cases houtcome

/-! ## A store of zeros -/

/-- A store that computes zeros, with an empty cache. -/
def storeOfZeros : Backend where
  stats := [[("mean", .float .zero), ("stddev", .float .zero)]]

/-- The same, with a cache that does not take anything. -/
def fullStore : Backend := { storeOfZeros with outages := [(.set, ⟨.cache, "out of memory"⟩)] }

theorem get_kept_or_unchanged_zeros :
    Kept Engine.patient "p1" "measurements" "voltage" Engine.zeros storeOfZeros
        (execute storeOfZeros
          (get Engine.patient (.text "p1") (.text "measurements") (.text "voltage"))).backend ∧
      (execute fullStore
        (get Engine.patient (.text "p1") (.text "measurements") (.text "voltage"))).backend
          = fullStore := by
  obtain ⟨hkept, _⟩ := get_kept_or_unchanged Engine.patient storeOfZeros "p1" "measurements"
    "voltage"
  obtain ⟨_, hunchanged⟩ := get_kept_or_unchanged Engine.patient fullStore "p1" "measurements"
    "voltage"
  exact ⟨hkept Engine.zeros rfl rfl,
    hunchanged (.badQuery (.backend "Cache error: out of memory")) rfl⟩

end Statistics
end EventQuery
