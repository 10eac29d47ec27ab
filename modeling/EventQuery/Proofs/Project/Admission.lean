import EventQuery.Proofs.Failure.Inside
import EventQuery.Proofs.Project.Entry

/-!
# EventQuery.Proofs.Project.Admission

What a caller who is turned away gets to know. Queries, views and listings are guarded
(`Project.Guarded`): the door comes first, and no failure of the door comes up behind it. So the
keys, the name and the rows of the project alone sort the callers (`Guarded.judges`), and a caller
who is turned away sees the same calls and the same failure whatever else was asked for and whatever
else the backend holds (`Guarded.alike`). `turns_callers_away` says it of each way in.
-/

namespace EventQuery

open Run

namespace Project

variable {s : Settings} {id : String} {caller : Caller} {rows : List Record} {α β : Type}

/-- Exchanges in which the lookup of a project was answered with these rows. -/
def Answered (s : Settings) (id : String) (rows : List Record) (xs : List Exchange) : Prop :=
  ∀ st answer, Asks s id st → .statement st answer ∈ xs → answer = .ok rows

/-- Rows that are projects. -/
def Fitting (rows : List Record) : Prop :=
  ∀ row ∈ rows, ∃ p, ofRecord (Client.decodeRecord row) = .ok p

/-- The verdict on a caller, with the rows of the project in hand: each failure of the door has its
reason, and where the name is no project's or no key was shown, nothing is sent. -/
structure Judged (id : String) (caller : Caller) (rows : List Record) (xs : List Exchange)
    (o : Outcome α) : Prop where
  noCredentials : o = .error .noCredentials ↔ caller.isAnonymous
  anonymous_sends_nothing : caller.isAnonymous → xs = []
  projectNotFound : ¬caller.isAnonymous →
    (o = .error .projectNotFound ↔ Name.isFlat id = false ∨ rows = [])
  badName_sends_nothing : Name.isFlat id = false → xs = []
  keyNotAuthorized : ¬caller.isAnonymous → Name.isFlat id = true → ∀ row rest p,
    rows = row :: rest → ofRecord (Client.decodeRecord row) = .ok p →
      (o = .error .keyNotAuthorized ↔ ¬caller.opens p)

/-- A run with a door: it ends as the entry of the caller does, or goes on from there, and then
fails, if it does, with no failure of the door. -/
def Guarded (s : Settings) (id : String) (caller : Caller) (r : Run α) : Prop :=
  ∀ xs o, r.EndsIn xs o →
    (∃ e, o = .error e ∧ Entry s id caller xs (.error e)) ∨
    ∃ p ys zs, xs = ys ++ zs ∧ Entry s id caller ys (.ok p) ∧ ∀ e, o = .error e → e.Inside

/-- Two runs that come to the same whenever the first is turned away, if the lookup of the project
gets the same answer in both. -/
def Alike (s : Settings) (id : String) (r r' : Run α) : Prop :=
  ∀ xs e xs' o', r.EndsIn xs (.error e) → e.TurnsAway → r'.EndsIn xs' o' →
    SameLookup s id xs xs' → xs' = xs ∧ o' = .error e

/-! ## One run -/

theorem Lookup.of_answered {table : String} {xs : List Exchange} {o : Outcome Project}
    (htable : Name.flat "projects table" (.text s.projectsTable) = .ok table)
    (hrows : Fitting rows) (hanswered : Answered s id rows xs) (h : Lookup s id xs o) :
    (Name.isFlat id = false ∧ xs = [] ∧ o = .error .projectNotFound) ∨
    (Name.isFlat id = true ∧ rows = [] ∧ o = .error .projectNotFound) ∨
    ∃ row rest p, Name.isFlat id = true ∧ rows = row :: rest ∧
      ofRecord (Client.decodeRecord row) = .ok p ∧ o = .ok p := by
  cases h with
  | badName hid => exact .inl ⟨hid, rfl, rfl⟩
  | badTable _ hst =>
    rw [Statement.project, htable] at hst
    cases hst
  | asked hasks =>
    refine .inr ?_
    obtain rfl := hanswered _ _ hasks List.mem_cons_self
    cases rows with
    | nil => exact .inl ⟨hasks.1, rfl, rfl⟩
    | cons row rest =>
      obtain ⟨p, hp⟩ := hrows row (by simp)
      exact .inr ⟨row, rest, p, hasks.1, rfl, hp, hp⟩

section Verdicts

variable {xs : List Exchange} {o : Outcome α} {row : Record} {rest : List Record} {p : Project}

theorem Judged.of_anonymous (hnone : caller.isAnonymous) :
    Judged id caller rows [] (.error .noCredentials : Outcome α) where
  noCredentials := by simpa using hnone
  anonymous_sends_nothing _ := rfl
  projectNotFound hsome := absurd hnone hsome
  badName_sends_nothing _ := rfl
  keyNotAuthorized hsome := absurd hnone hsome

theorem Judged.of_badName (hsome : ¬caller.isAnonymous) (hid : Name.isFlat id = false) :
    Judged id caller rows [] (.error .projectNotFound : Outcome α) where
  noCredentials := by simpa using hsome
  anonymous_sends_nothing hnone := absurd hnone hsome
  projectNotFound _ := by simp [hid]
  badName_sends_nothing _ := rfl
  keyNotAuthorized _ hflat := by simp [hid] at hflat

theorem Judged.of_noRows (hsome : ¬caller.isAnonymous) (hid : Name.isFlat id = true) :
    Judged id caller [] xs (.error .projectNotFound : Outcome α) where
  noCredentials := by simpa using hsome
  anonymous_sends_nothing hnone := absurd hnone hsome
  projectNotFound _ := by simp
  badName_sends_nothing hbad := by simp [hid] at hbad
  keyNotAuthorized _ _ _ _ _ hcons := by cases hcons

/-- A caller who finds the project is judged by the key alone. -/
theorem Judged.of_found (hsome : ¬caller.isAnonymous) (hid : Name.isFlat id = true)
    (hp : ofRecord (Client.decodeRecord row) = .ok p) (hcredentials : o ≠ .error .noCredentials)
    (hfound : o ≠ .error .projectNotFound) (hkey : o = .error .keyNotAuthorized ↔ ¬caller.opens p) :
    Judged id caller (row :: rest) xs o where
  noCredentials := iff_of_false hcredentials hsome
  anonymous_sends_nothing hnone := absurd hnone hsome
  projectNotFound _ := iff_of_false hfound (by simp [hid])
  badName_sends_nothing hbad := by simp [hid] at hbad
  keyNotAuthorized _ _ row' rest' p' hcons hp' := by
    cases hcons
    cases hp.symm.trans hp'
    exact hkey

end Verdicts

theorem Guarded.judges {table : String} {r : Run α} (h : Guarded s id caller r)
    (htable : Name.flat "projects table" (.text s.projectsTable) = .ok table)
    (hrows : Fitting rows) {xs : List Exchange} {o : Outcome α} (hends : r.EndsIn xs o)
    (hanswered : Answered s id rows xs) : Judged id caller rows xs o := by
  rcases h xs o hends with ⟨e, rfl, hentry⟩ | ⟨p, ys, zs, rfl, hentry, hinside⟩
  · cases hentry with
    | anonymous hnone => exact .of_anonymous hnone
    | failed hsome hlookup =>
      rcases hlookup.of_answered htable hrows hanswered with
        ⟨hid, rfl, he⟩ | ⟨hid, rfl, he⟩ | ⟨_, _, _, _, _, _, he⟩
      · cases he
        exact .of_badName hsome hid
      · cases he
        exact .of_noRows hsome hid
      · cases he
    | refused hsome hlookup hshut =>
      rcases hlookup.of_answered htable hrows hanswered with
        ⟨_, _, he⟩ | ⟨_, _, he⟩ | ⟨row, rest, p, hid, rfl, hp, he⟩
      · cases he
      · cases he
      · cases he
        exact .of_found hsome hid hp (by simp) (by simp) (by simpa using hshut)
  · -- behind the door: none of the three failures, and no reason for one
    have hnot : ∀ e, e.TurnsAway → o ≠ .error e := fun e he ho => hinside e ho he
    cases hentry with
    | admitted hsome hlookup hopen =>
      have hys : Answered s id rows ys := fun st answer hasks hmem =>
        hanswered st answer hasks (List.mem_append_left zs hmem)
      rcases hlookup.of_answered htable hrows hys with
        ⟨_, _, he⟩ | ⟨_, _, he⟩ | ⟨row, rest, p, hid, rfl, hp, he⟩
      · cases he
      · cases he
      · cases he
        exact .of_found hsome hid hp (hnot _ trivial) (hnot _ trivial)
          (iff_of_false (hnot _ trivial) (by simpa using hopen))

/-! ## Two runs -/

theorem Guarded.alike {r r' : Run α} (h : Guarded s id caller r) (h' : Guarded s id caller r') :
    Alike s id r r' := by
  intro xs e xs' o' hends haway hends' hsame
  -- the first run ended at the door: behind it, no failure turns a caller away
  obtain hentry : Entry s id caller xs (.error e) := by
    rcases h xs _ hends with ⟨_, he, hentry⟩ | ⟨_, _, _, _, _, hinside⟩
    · cases he
      exact hentry
    · exact absurd haway (hinside e rfl)
  rcases h' xs' o' hends' with ⟨e', rfl, hentry'⟩ | ⟨p, ys, zs, rfl, hentry', _⟩
  · obtain ⟨rfl, he⟩ := hentry.agree hentry' hsame
    cases he
    exact ⟨rfl, rfl⟩
  · have hys : SameLookup s id xs ys := fun st answer answer' hasks hmem hmem' =>
      hsame st answer answer' hasks hmem (List.mem_append_left zs hmem')
    cases (hentry.agree hentry' hys).2

/-! ## The ways in -/

theorem guarded_bind {door : Run Project} {f : Unit → Run β}
    (hdoor : ∀ xs o, door.EndsIn xs o → Entry s id caller xs o)
    (hf : ∀ u, (f u).FailsOnly Failure.Inside) : Guarded s id caller ((discard door).bind f) := by
  intro xs o h
  rcases h.split_any with ⟨e, he, rfl⟩ | ⟨u, ys, zs, rfl, hopen, hrest⟩
  · refine .inl ⟨e, rfl, ?_⟩
    rcases (show (door.bind fun _ => done (.ok ())).EndsIn xs (.error e) from he).split_any with
      ⟨e', he', heq⟩ | ⟨_, _, _, _, _, hdone⟩
    · cases heq
      exact hdoor xs _ he'
    · cases hdone
  · obtain ⟨p, ys', zs', rfl, hp, hdone⟩ :=
      (show (door.bind fun _ => done (.ok ())).EndsIn ys (.ok u) from hopen).split
    obtain ⟨rfl, _⟩ := endsIn_done.mp hdone
    rw [List.append_nil]
    refine .inr ⟨p, ys', zs, rfl, hdoor ys' _ hp, fun e ho => ?_⟩
    subst ho
    exact hf u zs e hrest

theorem guarded_run (a : Archetype) (p : Params) (now : DateTime) :
    Guarded s id (.ofKeys p.readKey p.masterKey) (Engine.run s a id p now) := by
  rw [Engine.run_eq]
  refine guarded_bind (fun _ _ => entry_of_enter) fun _ => ?_
  refine failsOnly_ofOutcome_bind (Gate.failsOnly_request _ _ _ _).inside fun r => ?_
  exact Engine.failsOnly_execute r now

theorem guarded_view (p : History.Params) (today : Date) :
    Guarded s id (.ofKeys p.readKey p.masterKey) (History.view s id p today) := by
  refine guarded_bind (fun _ _ => entry_of_enter) fun _ => ?_
  refine failsOnly_ofOutcome_bind (Name.failsAmong_flat _ _).inside fun collection => ?_
  split
  · exact failsOnly_fail fun h => h
  · refine failsOnly_ofOutcome_bind (Name.failsAmong_property _ _).inside fun property => ?_
    refine failsOnly_ofOutcome_bind (History.failsAmong_viewType _).inside fun type => ?_
    dsimp only
    split
    · exact failsOnly_fail fun h => h
    · refine failsOnly_ofOutcome_bind (History.failsAmong_referenceDate _ _).inside fun day => ?_
      refine (Client.failsOnly_read _).bind fun rollup => ?_
      exact failsOnly_ofOutcome (Rollup.failsAmong_view _ _ _).inside

theorem guarded_list (masterKey : Option String) :
    Guarded s id (.ofMasterKey masterKey) (Listing.list s id masterKey) := by
  refine guarded_bind (fun _ _ => entry_of_enterAsMaster) fun _ => ?_
  refine failsOnly_ofOutcome_bind (Statement.failsAmong_collections _).inside fun st => ?_
  refine (Client.failsOnly_fetch st).bind fun rows => ?_
  exact failsOnly_ofOutcome (Listing.failsAmong_ofRowsFrom _ _ _).inside

/-- Callers of queries, views and listings are sorted by their keys and by the project alone, and
those who are turned away cannot tell anything else apart. -/
theorem turns_callers_away (s : Settings) (id : String) :
    (∀ table rows, Name.flat "projects table" (.text s.projectsTable) = .ok table → Fitting rows →
      (∀ a p now xs o, (Engine.run s a id p now).EndsIn xs o → Answered s id rows xs →
        Judged id (.ofKeys p.readKey p.masterKey) rows xs o) ∧
      (∀ p today xs o, (History.view s id p today).EndsIn xs o → Answered s id rows xs →
        Judged id (.ofKeys p.readKey p.masterKey) rows xs o) ∧
      ∀ masterKey xs o, (Listing.list s id masterKey).EndsIn xs o → Answered s id rows xs →
        Judged id (.ofMasterKey masterKey) rows xs o) ∧
    (∀ a p now a' p' now', p'.readKey = p.readKey → p'.masterKey = p.masterKey →
      Alike s id (Engine.run s a id p now) (Engine.run s a' id p' now')) ∧
    (∀ p today p' today', p'.readKey = p.readKey → p'.masterKey = p.masterKey →
      Alike s id (History.view s id p today) (History.view s id p' today')) ∧
    ∀ masterKey, Alike s id (Listing.list s id masterKey) (Listing.list s id masterKey) := by
  refine ⟨?verdict, ?query, ?view, ?list⟩
  case verdict =>
    intro table rows htable hrows
    exact ⟨fun a p now xs o h hs => (guarded_run a p now).judges htable hrows h hs,
      fun p today xs o h hs => (guarded_view p today).judges htable hrows h hs,
      fun masterKey xs o h hs => (guarded_list masterKey).judges htable hrows h hs⟩
  case query =>
    intro a p now a' p' now' hread hmaster
    have hsecond : Guarded s id (.ofKeys p'.readKey p'.masterKey) (Engine.run s a' id p' now') :=
      guarded_run a' p' now'
    rw [hread, hmaster] at hsecond
    exact (guarded_run a p now).alike hsecond
  case view =>
    intro p today p' today' hread hmaster
    have hsecond : Guarded s id (.ofKeys p'.readKey p'.masterKey) (History.view s id p' today') :=
      guarded_view p' today'
    rw [hread, hmaster] at hsecond
    exact (guarded_view p today).alike hsecond
  case list => exact fun masterKey => (guarded_list masterKey).alike (guarded_list masterKey)

/-! ## A stranger -/

/-- A caller with a key that does not fit, who asks for what cannot be answered. -/
def stranger : Params where
  readKey := some "r2"
  eventCollection := some "no such collection"

def rowsOfP1 : List Record :=
  [[("project_id", .text "p1"), ("read_key", .text "r1"), ("master_key", .text "m1")]]

theorem fitting_rowsOfP1 : Fitting rowsOfP1 := by
  intro row hrow
  obtain rfl := List.mem_singleton.mp hrow
  exact ⟨⟨"p1", "r1", "m1", none, none⟩, rfl⟩

theorem answered_rowsOfP1 : Answered Engine.patient "p1" rowsOfP1 [Engine.findsProject] := by
  intro st answer _ hmem
  cases List.mem_singleton.mp hmem
  rfl

theorem run_stranger :
    (Engine.run Engine.patient .count "p1" stranger Engine.noon).EndsIn [Engine.findsProject]
      (.error .keyNotAuthorized) := .statement .done

theorem turns_callers_away_stranger :
    Judged "p1" (.ofKeys (some "r2") none) rowsOfP1 [Engine.findsProject]
        (.error .keyNotAuthorized : Outcome Value) ∧
      ∀ a p now xs o, p.readKey = some "r2" → p.masterKey = none →
        (Engine.run Engine.patient a "p1" p now).EndsIn xs o →
        SameLookup Engine.patient "p1" [Engine.findsProject] xs →
        xs = [Engine.findsProject] ∧ o = .error .keyNotAuthorized := by
  obtain ⟨hjudged, halike, _⟩ := turns_callers_away Engine.patient "p1"
  obtain ⟨hquery, _⟩ := hjudged "projects" rowsOfP1 rfl fitting_rowsOfP1
  refine ⟨hquery _ stranger _ _ _ run_stranger answered_rowsOfP1, ?_⟩
  intro a p now xs o hread hmaster hends hsame
  exact halike .count stranger Engine.noon a p now hread hmaster _ _ _ _ run_stranger trivial hends
    hsame

end Project
end EventQuery
