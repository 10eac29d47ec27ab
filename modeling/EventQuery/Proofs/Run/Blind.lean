import EventQuery.Backend.Client
import EventQuery.Backend.Memory
import Mathlib.Data.List.Forall2

/-!
# EventQuery.Proofs.Run.Blind

Runs that cannot tell one outage from another. `Run.Blind r`: wherever a call of `r` fails with an
outage that the store or the cache is known for, it goes on in the same way for all of them. Two
backends are alike when they differ in the kinds and the words of their outages and in nothing else
(`Backend.Alike`). A blind run comes to the same against both, by the same calls
(`Blind.execute_alike`). The store and the cache are blind as long as the words of backends stay
hidden, so all runs built from them are.
-/

namespace EventQuery

/-! ## Outages -/

/-- What the store is known to fail with. -/
def OutageKind.OfStore (kind : OutageKind) : Prop := kind ≠ .cache

/-- What the cache is known to fail with. -/
def OutageKind.OfCache (kind : OutageKind) : Prop :=
  kind = .cache ∨ kind = .network ∨ kind = .timeout

/-- The outages that are known at a place. -/
def Place.Knows : Place → Outage → Prop
  | get, o | set, o => o.kind.OfCache
  | _, o => o.kind.OfStore

theorem Place.knows_placeOf {st : Statement} {o : Outage} :
    (Backend.placeOf st).Knows o ↔ o.kind.OfStore := by
  unfold Backend.placeOf
  split
  · rfl
  · split
    · rfl
    · split <;> rfl

namespace Backend

/-- Two backends of the same content that fail at the same places. -/
structure Alike (b b' : Backend) : Prop where
  projects_eq : b.projects = b'.projects
  rows_eq : b.rows = b'.rows
  columns_eq : b.columns = b'.columns
  stats_eq : b.stats = b'.stats
  documents_eq : b.documents = b'.documents
  outages : List.Forall₂ (fun x y => x.1 = y.1 ∧ x.1.Knows x.2 ∧ x.1.Knows y.2)
    b.outages b'.outages

structure Trace.Alike {α : Type} (t t' : Trace α) : Prop where
  outcome_eq : t.outcome = t'.outcome
  calls_eq : t.calls = t'.calls
  backend : t.backend.Alike t'.backend

variable {b b' : Backend}

theorem Alike.outage? (h : b.Alike b') (p : Place) :
    (b.outage? p = none ∧ b'.outage? p = none) ∨
      ∃ o o', b.outage? p = some o ∧ b'.outage? p = some o' ∧ p.Knows o ∧ p.Knows o' := by
  obtain ⟨_, _, _, _, _, houtages⟩ := h
  unfold Backend.outage?
  generalize b.outages = xs at houtages
  generalize b'.outages = ys at houtages
  induction houtages with
  | nil => exact .inl ⟨rfl, rfl⟩
  | @cons x y xs ys hxy _ ih =>
    obtain ⟨q, o⟩ := x
    obtain ⟨q', o'⟩ := y
    obtain ⟨rfl, ho, ho'⟩ := hxy
    by_cases hp : p = q
    · subst hp
      exact .inr ⟨o, o', by simp, by simp, ho, ho'⟩
    · have hne : (p == q) = false := by simpa using hp
      simpa [List.lookup_cons, hne] using ih

theorem Alike.answer_eq (h : b.Alike b') (st : Statement) : b.answer st = b'.answer st := by
  simp only [answer, h.projects_eq, h.rows_eq, h.columns_eq, h.stats_eq]

theorem Alike.set (h : b.Alike b') (key text : String) :
    Alike { b with documents := Assoc.set key text b.documents }
      { b' with documents := Assoc.set key text b'.documents } :=
  { h with documents_eq := by rw [h.documents_eq] }

theorem Trace.Alike.sent {α : Type} {t t' : Trace α} (h : t.Alike t') (c : Call) :
    (t.sent c).Alike (t'.sent c) :=
  { h with calls_eq := congrArg (c :: ·) h.calls_eq }

end Backend

/-! ## Runs -/

namespace Run

variable {α β : Type}

inductive Blind : Run α → Prop where
  | done {o : Outcome α} : Blind (.done o)
  | statement {st : Statement} {next : Except Outage (List Record) → Run α} :
      (∀ o o', o.kind.OfStore → o'.kind.OfStore → next (.error o) = next (.error o')) →
      (∀ answer, Blind (next answer)) → Blind (.statement st next)
  | get {key : String} {next : Except Outage (Option String) → Run α} :
      (∀ o o', o.kind.OfCache → o'.kind.OfCache → next (.error o) = next (.error o')) →
      (∀ answer, Blind (next answer)) → Blind (.get key next)
  | set {key text : String} {next : Except Outage Unit → Run α} :
      (∀ o o', o.kind.OfCache → o'.kind.OfCache → next (.error o) = next (.error o')) →
      (∀ answer, Blind (next answer)) → Blind (.set key text next)

theorem Blind.bind {r : Run α} {f : α → Run β} (hr : r.Blind) (hf : ∀ a, (f a).Blind) :
    (r.bind f).Blind := by
  induction hr with
  | @done o =>
    cases o with
    | ok a => exact hf a
    | error e => exact .done
  | statement hsame _ ih =>
    refine .statement (fun o o' ho ho' => ?_) ih
    rw [hsame o o' ho ho']
  | get hsame _ ih =>
    refine .get (fun o o' ho ho' => ?_) ih
    rw [hsame o o' ho ho']
  | set hsame _ ih =>
    refine .set (fun o o' ho ho' => ?_) ih
    rw [hsame o o' ho ho']

theorem blind_ofOutcome_bind {o : Outcome α} {f : α → Run β} (hf : ∀ a, (f a).Blind) :
    ((ofOutcome o).bind f).Blind := Blind.bind .done hf

open Backend in
theorem Blind.execute_alike {r : Run α} (hr : r.Blind) {b b' : Backend} (h : b.Alike b') :
    (execute b r).Alike (execute b' r) := by
  induction hr generalizing b b' with
  | done => exact ⟨rfl, rfl, h⟩
  | @statement st next hsame _ ih =>
    simp only [execute]
    rcases h.outage? .acquire with ⟨hacquire, hacquire'⟩ | ⟨o, o', hacquire, hacquire', ho, ho'⟩
    · rw [hacquire, hacquire']
      refine Trace.Alike.sent ?_ _
      rcases h.outage? (placeOf st) with ⟨hplace, hplace'⟩ | ⟨o, o', hplace, hplace', ho, ho'⟩
      · rw [hplace, hplace', h.answer_eq]
        exact ih _ h
      · rw [hplace, hplace']
        dsimp only
        rw [hsame o o' (Place.knows_placeOf.mp ho) (Place.knows_placeOf.mp ho')]
        exact ih _ h
    · rw [hacquire, hacquire']
      dsimp only
      rw [hsame o o' ho ho']
      exact ih _ h
  | @get key next hsame _ ih =>
    simp only [execute]
    refine Trace.Alike.sent ?_ _
    rcases h.outage? .get with ⟨hget, hget'⟩ | ⟨o, o', hget, hget', ho, ho'⟩
    · rw [hget, hget', h.documents_eq]
      exact ih _ h
    · rw [hget, hget']
      dsimp only
      rw [hsame o o' ho ho']
      exact ih _ h
  | @set key text next hsame _ ih =>
    simp only [execute]
    refine Trace.Alike.sent ?_ _
    rcases h.outage? .set with ⟨hset, hset'⟩ | ⟨o, o', hset, hset', ho, ho'⟩
    · rw [hset, hset']
      exact ih _ (h.set key text)
    · rw [hset, hset']
      dsimp only
      rw [hsame o o' ho ho']
      exact ih _ h

end Run

/-! ## The store and the cache -/

namespace Client

open Run

variable {s : Settings}

/-- Where the words of a backend are hidden, all refusals have the same. -/
theorem refusal_eq (hs : s.exposeErrors = false) (text text' : String) :
    refusal s text = refusal s text' := by
  simp [refusal, hs]

theorem storeFailure_eq (hs : s.exposeErrors = false) {o o' : Outage} (ho : o.kind.OfStore)
    (ho' : o'.kind.OfStore) : storeFailure s o = storeFailure s o' := by
  have hhidden : ∀ {o : Outage}, o.kind.OfStore → storeFailure s o = refusal s hiddenText := by
    intro o ho
    unfold storeFailure
    split
    · exact refusal_eq hs _ _
    · rename_i hkind
      exact absurd hkind ho
    · exact refusal_eq hs _ _
  rw [hhidden ho, hhidden ho']

theorem cacheFailure_eq (hs : s.exposeErrors = false) {o o' : Outage} (ho : o.kind.OfCache)
    (ho' : o'.kind.OfCache) : cacheFailure s o = cacheFailure s o' := by
  have hhidden : ∀ {o : Outage}, o.kind.OfCache → cacheFailure s o = refusal s hiddenText := by
    intro o ho
    unfold cacheFailure
    rcases ho with hkind | hkind | hkind <;> rw [hkind] <;> exact refusal_eq hs _ _
  rw [hhidden ho, hhidden ho']

theorem blind_fetch (hs : s.exposeErrors = false) (st : Statement) : (fetch s st).Blind := by
  refine .statement (fun o o' ho ho' => ?_) fun answer => ?_
  · exact congrArg fail (storeFailure_eq hs ho ho')
  · cases answer <;> exact .done

theorem blind_fetchOne (hs : s.exposeErrors = false) (st : Statement) : (fetchOne s st).Blind :=
  (blind_fetch hs st).bind fun _ => .done

theorem blind_read (hs : s.exposeErrors = false) (key : String) : (read s key).Blind := by
  unfold read
  split
  · exact .done
  · refine .get (fun o o' ho ho' => ?_) fun answer => ?_
    · exact congrArg fail (cacheFailure_eq hs ho ho')
    · rcases answer with _ | _ | _ <;> exact .done

theorem blind_write (hs : s.exposeErrors = false) (key : String) (v : Value) :
    (write s key v).Blind := by
  unfold write
  split
  · exact .done
  · split
    · exact .done
    · refine .set (fun o o' ho ho' => ?_) fun answer => ?_
      · exact congrArg fail (cacheFailure_eq hs ho ho')
      · cases answer <;> exact .done

end Client
end EventQuery
