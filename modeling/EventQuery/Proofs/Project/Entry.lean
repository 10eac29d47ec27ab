import EventQuery.Proofs.Engine.Isolation

/-!
# EventQuery.Proofs.Project.Entry

Who is let in. `Lookup` lists the ways in which the lookup of a project can come out, with the
answer that the store gave; `Entry` adds what the keys of a caller make of it. Readers show a read
key or a master key, administrators a master key only (`Caller.ofKeys`, `Caller.ofMasterKey`).
`entry_of_enter` and `entry_of_enterAsMaster` say that there is no other way to come out, and
`Entry.agree` that the answer to the lookup decides which one it is.
-/

namespace EventQuery

open Run

namespace Project

/-- A key that is missing or empty. -/
def Absent (key : Option String) : Prop := key = none ∨ key = some ""

/-- A key shown where another is expected: it is that one, and not empty. -/
def Fits (key : Option String) (expected : String) : Prop := key = some expected ∧ expected ≠ ""

/-- A caller at the door: one who shows no key, or the projects that the keys open. -/
structure Caller where
  isAnonymous : Prop
  opens : Project → Prop

namespace Caller

def ofKeys (readKey masterKey : Option String) : Caller where
  isAnonymous := Absent readKey ∧ Absent masterKey
  opens p := Fits readKey p.readKey ∨ Fits masterKey p.masterKey

def ofMasterKey (masterKey : Option String) : Caller where
  isAnonymous := Absent masterKey
  opens p := Fits masterKey p.masterKey

end Caller

/-- The statement that looks an accepted project up. -/
def Asks (s : Settings) (id : String) (st : Statement) : Prop :=
  Name.isFlat id = true ∧ Statement.project (.text s.projectsTable) (.text id) = .ok st

/-- The project in the answer to its lookup. -/
def found (s : Settings) : Except Outage (List Record) → Outcome Project
  | .error o => .error (Client.storeFailure s o)
  | .ok [] => .error .projectNotFound
  | .ok (row :: _) => ofRecord (Client.decodeRecord row)

/-- What the lookup of a project can come to. -/
inductive Lookup (s : Settings) (id : String) : List Exchange → Outcome Project → Prop where
  | badName : Name.isFlat id = false → Lookup s id [] (.error .projectNotFound)
  | badTable {e : Failure} : Name.isFlat id = true →
      Statement.project (.text s.projectsTable) (.text id) = .error e → Lookup s id [] (.error e)
  | asked {st : Statement} {answer : Except Outage (List Record)} : Asks s id st →
      Lookup s id [.statement st answer] (found s answer)

/-- What a caller who asks to be let in can come to. -/
inductive Entry (s : Settings) (id : String) (caller : Caller) :
    List Exchange → Outcome Project → Prop where
  | anonymous : caller.isAnonymous → Entry s id caller [] (.error .noCredentials)
  | failed {xs : List Exchange} {e : Failure} : ¬caller.isAnonymous →
      Lookup s id xs (.error e) → Entry s id caller xs (.error e)
  | refused {xs : List Exchange} {p : Project} : ¬caller.isAnonymous →
      Lookup s id xs (.ok p) → ¬caller.opens p → Entry s id caller xs (.error .keyNotAuthorized)
  | admitted {xs : List Exchange} {p : Project} : ¬caller.isAnonymous →
      Lookup s id xs (.ok p) → caller.opens p → Entry s id caller xs (.ok p)

variable {s : Settings} {id : String}

/-! ## Keys -/

theorem present_eq_none {key : Option String} : present key = none ↔ Absent key := by
  cases key with
  | none => simp [present, Absent]
  | some k => simp [present, Absent]

theorem sameKey_iff {key : Option String} {expected : String} :
    sameKey key expected = true ↔ Fits key expected := by
  unfold sameKey
  cases hkey : present key with
  | none =>
    rcases present_eq_none.mp hkey with rfl | rfl
    · simp [Fits]
    · constructor
      · intro h
        cases h
      · rintro ⟨h, hne⟩
        cases h
        exact absurd rfl hne
  | some k =>
    obtain ⟨rfl, hk⟩ := Option.filter_eq_some_iff.mp hkey
    constructor
    · intro h
      obtain ⟨hne, rfl⟩ : expected ≠ "" ∧ k = expected := by simpa using h
      exact ⟨rfl, hne⟩
    · rintro ⟨h, hne⟩
      cases h
      simpa using hne

/-! ## The ways in -/

theorem found_of_fetchOne {st : Statement} {xs : List Exchange} {o : Outcome Project}
    (h : ((Client.fetchOne s st).bind fun
      | none => .fail .projectNotFound
      | some row => .ofOutcome (ofRecord row)).EndsIn xs o) :
    ∃ answer, xs = [.statement st answer] ∧ o = found s answer := by
  cases h with
  | @statement _ _ answer ys _ h =>
    refine ⟨answer, ?_⟩
    cases answer with
    | error outage =>
      obtain ⟨rfl, rfl⟩ := endsIn_done.mp h
      exact ⟨rfl, rfl⟩
    | ok rows =>
      cases rows with
      | nil =>
        obtain ⟨rfl, rfl⟩ := endsIn_done.mp h
        exact ⟨rfl, rfl⟩
      | cons row rest =>
        obtain ⟨rfl, rfl⟩ := endsIn_done.mp h
        exact ⟨rfl, rfl⟩

theorem lookup_of_find {xs : List Exchange} {o : Outcome Project} (h : (find s id).EndsIn xs o) :
    Lookup s id xs o := by
  unfold find at h
  split at h
  · rename_i hid
    rcases h.split_ofOutcome with ⟨e, hst, rfl, rfl⟩ | ⟨st, hst, h⟩
    · exact .badTable hid hst
    · obtain ⟨answer, rfl, rfl⟩ := found_of_fetchOne h
      exact .asked ⟨hid, hst⟩
  · rename_i hid
    obtain ⟨rfl, rfl⟩ := endsIn_done.mp h
    exact .badName (by simpa using hid)

/-- What follows the lookup without a call of its own compares the keys. -/
theorem entry_of_find {caller : Caller} {f : Project → Run Project} {xs : List Exchange}
    {o : Outcome Project} (hcaller : ¬caller.isAnonymous)
    (hopen : ∀ p, caller.opens p → f p = .done (.ok p))
    (hshut : ∀ p, ¬caller.opens p → f p = .done (.error .keyNotAuthorized))
    (h : ((find s id).bind f).EndsIn xs o) : Entry s id caller xs o := by
  rcases h.split_any with ⟨e, he, rfl⟩ | ⟨p, ys, zs, rfl, hfind, hrest⟩
  · exact .failed hcaller (lookup_of_find he)
  · have hlookup := lookup_of_find hfind
    by_cases hp : caller.opens p
    · rw [hopen p hp] at hrest
      obtain ⟨rfl, rfl⟩ := endsIn_done.mp hrest
      rw [List.append_nil]
      exact .admitted hcaller hlookup hp
    · rw [hshut p hp] at hrest
      obtain ⟨rfl, rfl⟩ := endsIn_done.mp hrest
      rw [List.append_nil]
      exact .refused hcaller hlookup hp

theorem entry_of_enter {c : Credentials} {xs : List Exchange} {o : Outcome Project}
    (h : (enter s id c).EndsIn xs o) :
    Entry s id (.ofKeys c.readKey c.masterKey) xs o := by
  have hkeys : (present c.readKey).isNone && (present c.masterKey).isNone ↔
      (Caller.ofKeys c.readKey c.masterKey).isAnonymous := by
    simp [present_eq_none, Caller.ofKeys]
  rcases h.split_ofOutcome with ⟨e, he, rfl, rfl⟩ | ⟨_, hsome, h⟩
  · unfold requireKey at he
    split at he
    · rename_i hnone
      cases he
      exact .anonymous (hkeys.mp hnone)
    · cases he
  · have hcaller : ¬(Caller.ofKeys c.readKey c.masterKey).isAnonymous := by
      intro hnone
      rw [requireKey, if_pos (hkeys.mpr hnone)] at hsome
      cases hsome
    have hopens : ∀ p, sameKey c.readKey p.readKey || sameKey c.masterKey p.masterKey ↔
        (Caller.ofKeys c.readKey c.masterKey).opens p := by
      intro p
      simp [sameKey_iff, Caller.ofKeys]
    refine entry_of_find hcaller ?_ ?_ h
    · intro p hp
      rw [authorize, hsome]
      dsimp only
      rw [if_pos ((hopens p).mpr hp)]
      rfl
    · intro p hp
      rw [authorize, hsome]
      dsimp only
      rw [if_neg fun hsame => hp ((hopens p).mp hsame)]
      rfl

theorem entry_of_enterAsMaster {masterKey : Option String} {xs : List Exchange}
    {o : Outcome Project} (h : (enterAsMaster s id masterKey).EndsIn xs o) :
    Entry s id (.ofMasterKey masterKey) xs o := by
  unfold enterAsMaster at h
  split at h
  · rename_i hnone
    obtain ⟨rfl, rfl⟩ := endsIn_done.mp h
    exact .anonymous (present_eq_none.mp (by simpa using hnone))
  · rename_i hsome
    refine entry_of_find (fun hnone => ?_) ?_ ?_ h
    · exact hsome (by simpa using present_eq_none.mpr hnone)
    · intro p hp
      rw [if_pos (sameKey_iff.mpr hp)]
      rfl
    · intro p hp
      rw [if_neg fun hsame => hp (sameKey_iff.mp hsame)]
      rfl

/-! ## The answer decides -/

theorem Lookup.isLookup {xs : List Exchange} {o : Outcome Project} (h : Lookup s id xs o) :
    ∀ x ∈ xs, IsLookup s id x.call := by
  intro x hx
  cases h with
  | badName | badTable => cases hx
  | asked hasks =>
    cases List.mem_singleton.mp hx
    exact ⟨_, hasks.2, rfl⟩

theorem Entry.isLookup {caller : Caller} {xs : List Exchange} {o : Outcome Project}
    (h : Entry s id caller xs o) : ∀ x ∈ xs, IsLookup s id x.call := by
  cases h with
  | anonymous => simp
  | failed _ h => exact h.isLookup
  | refused _ h => exact h.isLookup
  | admitted _ h => exact h.isLookup

theorem Lookup.isFlat {xs : List Exchange} {p : Project} (h : Lookup s id xs (.ok p)) :
    Name.isFlat id = true := by
  generalize hok : (Except.ok p : Outcome Project) = o at h
  cases h with
  | badName | badTable => cases hok
  | asked hasks => exact hasks.1

theorem Entry.isFlat {caller : Caller} {xs : List Exchange} {p : Project}
    (h : Entry s id caller xs (.ok p)) : Name.isFlat id = true := by
  cases h with
  | admitted _ h => exact h.isFlat

/-- Exchanges in which the lookup of a project got no two different answers. -/
def SameLookup (s : Settings) (id : String) (xs xs' : List Exchange) : Prop :=
  ∀ st answer answer', Asks s id st → .statement st answer ∈ xs → .statement st answer' ∈ xs' →
    answer = answer'

theorem Lookup.agree {xs xs' : List Exchange} {o o' : Outcome Project} (h : Lookup s id xs o)
    (h' : Lookup s id xs' o') (hsame : SameLookup s id xs xs') : xs = xs' ∧ o = o' := by
  cases h with
  | badName hid =>
    cases h' with
    | badName => exact ⟨rfl, rfl⟩
    | badTable hid' => simp [hid'] at hid
    | asked hasks => simp [hasks.1] at hid
  | badTable hid hst =>
    cases h' with
    | badName hid' => simp [hid'] at hid
    | badTable _ hst' =>
      cases hst.symm.trans hst'
      exact ⟨rfl, rfl⟩
    | asked hasks => cases hst.symm.trans hasks.2
  | @asked st answer hasks =>
    cases h' with
    | badName hid => simp [hasks.1] at hid
    | badTable _ hst => cases hst.symm.trans hasks.2
    | @asked st' answer' hasks' =>
      cases hasks.2.symm.trans hasks'.2
      obtain rfl : answer = answer' := hsame st _ _ hasks (by simp) (by simp)
      exact ⟨rfl, rfl⟩

/-- The same caller is told the same, if the lookup of the project gets the same answer. -/
theorem Entry.agree {caller : Caller} {xs xs' : List Exchange} {o o' : Outcome Project}
    (h : Entry s id caller xs o) (h' : Entry s id caller xs' o')
    (hsame : SameLookup s id xs xs') : xs = xs' ∧ o = o' := by
  cases h with
  | anonymous hnone =>
    cases h' with
    | anonymous => exact ⟨rfl, rfl⟩
    | failed hsome | refused hsome | admitted hsome => exact absurd hnone hsome
  | failed hsome h =>
    cases h' with
    | anonymous hnone => exact absurd hnone hsome
    | failed _ h' =>
      obtain ⟨rfl, ho⟩ := h.agree h' hsame
      cases ho
      exact ⟨rfl, rfl⟩
    | refused _ h' | admitted _ h' => cases (h.agree h' hsame).2
  | refused hsome h hshut =>
    cases h' with
    | anonymous hnone => exact absurd hnone hsome
    | failed _ h' => cases (h.agree h' hsame).2
    | refused _ h' =>
      obtain ⟨rfl, _⟩ := h.agree h' hsame
      exact ⟨rfl, rfl⟩
    | admitted _ h' hopen =>
      cases (h.agree h' hsame).2
      exact absurd hopen hshut
  | admitted hsome h hopen =>
    cases h' with
    | anonymous hnone => exact absurd hnone hsome
    | failed _ h' => cases (h.agree h' hsame).2
    | refused _ h' hshut =>
      cases (h.agree h' hsame).2
      exact absurd hopen hshut
    | admitted _ h' =>
      obtain ⟨rfl, ho⟩ := h.agree h' hsame
      cases ho
      exact ⟨rfl, rfl⟩

/-- The lookup is the one exchange there can be, so the exchanges decide. -/
theorem Entry.deterministic {caller : Caller} {xs : List Exchange} {o o' : Outcome Project}
    (h : Entry s id caller xs o) (h' : Entry s id caller xs o') : o = o' := by
  have hone : ∀ {o}, Lookup s id xs o → ∀ x ∈ xs, ∀ y ∈ xs, x = y := by
    intro o hlookup x hx y hy
    cases hlookup with
    | badName | badTable => cases hx
    | asked => rw [List.mem_singleton.mp hx, List.mem_singleton.mp hy]
  have hsame : SameLookup s id xs xs := by
    intro st answer answer' _ hmem hmem'
    have heq : Exchange.statement st answer = .statement st answer' := by
      cases h with
      | anonymous => cases hmem
      | failed _ hlookup => exact hone hlookup _ hmem _ hmem'
      | refused _ hlookup => exact hone hlookup _ hmem _ hmem'
      | admitted _ hlookup => exact hone hlookup _ hmem _ hmem'
    cases heq
    rfl
  exact (h.agree h' hsame).2

end Project
end EventQuery
