import EventQuery.Proofs.Run.Exchange
import Mathlib.Logic.Function.Basic
import Mathlib.Logic.Relation

/-!
# EventQuery.Proofs.Run.Interleaving

Runs of several callers on one cache. Each step is one call of one caller: the store answers a
statement with any rows, and the cache gives and takes documents. What the cache holds is what was
written so far (`written_of_lookup`), each read saw what had been written before it
(`Reaches.coherent`), and what a caller's own calls keep is kept in every interleaving
(`Reaches.own`).
-/

namespace EventQuery

variable {ι α : Type}

/-! ## One call -/

namespace Run

/-- One call of a run on the documents of a cache, and what they and the run are after it. -/
inductive Calls (documents : List (String × String)) :
    Run α → Exchange → List (String × String) → Run α → Prop where
  | statement {st : Statement} {next : Except Outage (List Record) → Run α}
      (rows : List Record) :
      Calls documents (.statement st next) (.statement st (.ok rows)) documents (next (.ok rows))
  | get {key : String} {next : Except Outage (Option String) → Run α} :
      Calls documents (.get key next) (.get key (.ok (documents.lookup key))) documents
        (next (.ok (documents.lookup key)))
  | set {key text : String} {next : Except Outage Unit → Run α} :
      Calls documents (.set key text next) (.set key text (.ok ()))
        (Assoc.set key text documents) (next (.ok ()))

/-- A run that is not done can make its next call. -/
theorem calls_of_not_done (documents : List (String × String)) (r : Run α)
    (h : ∀ o, r ≠ .done o) : ∃ x documents' r', r.Calls documents x documents' r' := by
  cases r with
  | done o => exact absurd rfl (h o)
  | statement st next => exact ⟨_, _, _, .statement []⟩
  | get key next => exact ⟨_, _, _, .get⟩
  | set key text next => exact ⟨_, _, _, .set⟩

end Run

/-- The documents of a cache after an exchange. -/
def Exchange.write (x : Exchange) (documents : List (String × String)) :
    List (String × String) :=
  match x with
  | .set key text (.ok _) => Assoc.set key text documents
  | _ => documents

theorem Run.Calls.documents_eq {documents documents' : List (String × String)} {r r' : Run α}
    {x : Exchange} (h : r.Calls documents x documents' r') : documents' = x.write documents := by
  cases h with
  | statement => rfl
  | get => rfl
  | set => rfl

theorem Run.Calls.answer_eq {documents documents' : List (String × String)} {r r' : Run α}
    {key : String} {answer : Except Outage (Option String)}
    (h : r.Calls documents (.get key answer) documents' r') :
    answer = .ok (documents.lookup key) := by
  cases h with
  | get => rfl

theorem Exchange.lookup_write {x : Exchange} {documents : List (String × String)} {key : String}
    (h : documents.lookup key ≠ none) : (x.write documents).lookup key ≠ none := by
  cases x with
  | statement => exact h
  | get => exact h
  | set other text answer =>
    cases answer with
    | error => exact h
    | ok =>
      by_cases hkey : key = other
      · subst hkey
        simp [Exchange.write, Assoc.lookup_set_self]
      · simpa [Exchange.write, Assoc.lookup_set_of_ne hkey] using h

/-! ## All callers -/

/-- The documents of the cache, what each caller still has to do, and all calls so far, the last
first. -/
structure Crowd (ι α : Type) where
  documents : List (String × String)
  runs : ι → Run α
  history : List (ι × Exchange)

namespace Crowd

section Contents

variable {start : List (String × String)} {history : List (ι × Exchange)} {key text : String}

/-- What a cache holds after some calls. -/
def contents (start : List (String × String)) : List (ι × Exchange) → List (String × String)
  | [] => start
  | (_, x) :: earlier => x.write (contents start earlier)

theorem written_of_lookup (h : (contents start history).lookup key = some text) :
    start.lookup key = some text ∨ ∃ j, (j, .set key text (.ok ())) ∈ history := by
  induction history with
  | nil => exact .inl h
  | cons entry earlier ih =>
    obtain ⟨i, x⟩ := entry
    have hearlier : (contents start earlier).lookup key = some text →
        start.lookup key = some text ∨ ∃ j, (j, .set key text (.ok ())) ∈ (i, x) :: earlier := by
      intro hlookup
      rcases ih hlookup with hstart | ⟨j, hj⟩
      · exact .inl hstart
      · exact .inr ⟨j, List.mem_cons_of_mem _ hj⟩
    cases x with
    | statement => exact hearlier h
    | get => exact hearlier h
    | set other written answer =>
      cases answer with
      | error => exact hearlier h
      | ok =>
        by_cases hkey : key = other
        · subst hkey
          obtain rfl : written = text := by
            simpa [contents, Exchange.write, Assoc.lookup_set_self] using h
          exact .inr ⟨i, List.mem_cons_self⟩
        · exact hearlier (by simpa [contents, Exchange.write, Assoc.lookup_set_of_ne hkey] using h)

theorem lookup_of_written {j : ι} (h : (j, .set key text (.ok ())) ∈ history) :
    (contents start history).lookup key ≠ none := by
  induction history with
  | nil => cases h
  | cons entry earlier ih =>
    rcases List.mem_cons.mp h with rfl | hearlier
    · simp [contents, Exchange.write, Assoc.lookup_set_self]
    · exact Exchange.lookup_write (ih hearlier)

end Contents

variable [DecidableEq ι]

/-- One caller makes its next call. -/
inductive Step (c : Crowd ι α) : Crowd ι α → Prop where
  | call {i : ι} {x : Exchange} {documents : List (String × String)} {r : Run α} :
      (c.runs i).Calls c.documents x documents r →
      Step c ⟨documents, Function.update c.runs i r, (i, x) :: c.history⟩

def Reaches : Crowd ι α → Crowd ι α → Prop := Relation.ReflTransGen Step

def start (documents : List (String × String)) (runs : ι → Run α) : Crowd ι α :=
  ⟨documents, runs, []⟩

/-- The calls of one caller, the last first. -/
def own (c : Crowd ι α) (i : ι) : List Exchange :=
  (c.history.filter (·.1 = i)).map (·.2)

theorem mem_own {c : Crowd ι α} {i : ι} {x : Exchange} : x ∈ c.own i ↔ (i, x) ∈ c.history := by
  simp [own]

/-- What holds of the calls of each caller before it makes one, and is kept by each call, holds in
every interleaving. -/
theorem Reaches.own {documents : List (String × String)} {runs : ι → Run α} {c : Crowd ι α}
    {p : ι → List Exchange → Run α → Prop} (h : Reaches (start documents runs) c)
    (hstart : ∀ i, p i [] (runs i))
    (hcall : ∀ i xs r documents x documents' r', p i xs r → r.Calls documents x documents' r' →
      p i (x :: xs) r') (i : ι) : p i (c.own i) (c.runs i) := by
  induction h with
  | refl => exact hstart i
  | @tail c c' _ hstep ih =>
    cases hstep with
    | @call j x documents r hcalls =>
      -- a call adds to the calls of its caller only, and leaves all other runs as they are
      by_cases hij : j = i
      · subst hij
        have hown : Crowd.own ⟨documents, Function.update c.runs j r, (j, x) :: c.history⟩ j
            = x :: c.own j := by simp [Crowd.own]
        rw [hown]
        simpa using hcall j _ _ _ _ _ _ ih hcalls
      · have hown : Crowd.own ⟨documents, Function.update c.runs j r, (j, x) :: c.history⟩ i
            = c.own i := by simp [Crowd.own, hij]
        rw [hown]
        simpa [Function.update_of_ne (Ne.symm hij)] using ih

/-- The cache holds what was written, and each read saw what had been written before it. -/
structure Coherent (documents : List (String × String)) (c : Crowd ι α) : Prop where
  documents_eq : c.documents = contents documents c.history
  reads : ∀ later i key answer earlier, c.history = later ++ (i, .get key answer) :: earlier →
    answer = .ok ((contents documents earlier).lookup key)

theorem Step.coherent {documents : List (String × String)} {c c' : Crowd ι α}
    (h : c.Coherent documents) (hstep : Step c c') : c'.Coherent documents := by
  cases hstep with
  | @call i x after r hcalls =>
    refine ⟨?documents, ?reads⟩
    case documents =>
      show after = x.write (contents documents c.history)
      rw [← h.documents_eq]
      exact hcalls.documents_eq
    case reads =>
      intro later j key answer earlier heq
      cases later with
      | nil =>
        cases heq
        rw [← h.documents_eq]
        exact hcalls.answer_eq
      | cons entry later =>
        obtain ⟨_, htail⟩ := List.cons_eq_cons.mp heq
        exact h.reads later j key answer earlier htail

theorem Reaches.coherent {documents : List (String × String)} {runs : ι → Run α} {c : Crowd ι α}
    (h : Reaches (start documents runs) c) : c.Coherent documents := by
  induction h with
  | refl =>
    refine ⟨rfl, fun later i key answer earlier heq => ?_⟩
    simp [start] at heq
  | tail _ hstep ih => exact hstep.coherent ih

/-- Documents do not go away. -/
theorem Reaches.lookup_ne_none {c c' : Crowd ι α} {key : String} (h : Reaches c c')
    (hkey : c.documents.lookup key ≠ none) : c'.documents.lookup key ≠ none := by
  induction h with
  | refl => exact hkey
  | tail _ hstep ih =>
    cases hstep with
    | call hcalls =>
      rw [hcalls.documents_eq]
      exact Exchange.lookup_write ih

end Crowd
end EventQuery
