import EventQuery.Failure
import Mathlib.Data.List.Forall2

/-!
# EventQuery.Proofs.Outcome

Outcomes taken apart: what an operation in steps comes to when it succeeds is what its steps came
to, and when it fails, one of its steps has failed. `FailsAmong faults o`: the outcome `o` may be a
complaint or one of the faults, and no other failure. An outcome that `Settles` is a value or a
complaint. Steps taken in order fail as the first one that fails (`mapM_eq_error_iff`), and succeed
if each does (`mapM_eq_ok_iff`). Two outcomes are `Alike` if they are related values or the same
failure.
-/

namespace EventQuery

/-- Complaints, and the faults of a list. -/
def Failure.Among (faults : List Fault) : Failure → Prop
  | badQuery _ => True
  | fault cause => cause ∈ faults
  | _ => False

namespace Outcome

variable {α β : Type}

theorem map_eq_ok {o : Outcome α} {f : α → β} {b : β} (h : o.map f = .ok b) :
    ∃ a, o = .ok a ∧ f a = b := by
  cases o with
  | ok a => exact ⟨a, rfl, by injection h⟩
  | error e => cases h

theorem map_eq_error_iff {o : Outcome α} {f : α → β} {e : Failure} :
    o.map f = .error e ↔ o = .error e := by
  cases o with
  | ok a => exact iff_of_false nofun nofun
  | error e' => simp [Except.map]

theorem exists_map_eq_ok_iff {o : Outcome α} {f : α → β} :
    (∃ b, o.map f = .ok b) ↔ ∃ a, o = .ok a := by
  cases o with
  | ok a => exact iff_of_true ⟨f a, rfl⟩ ⟨a, rfl⟩
  | error e => exact iff_of_false nofun nofun

theorem ok_bind (a : α) (f : α → Outcome β) : (.ok a : Outcome α) >>= f = f a := rfl

theorem error_bind (e : Failure) (f : α → Outcome β) :
    (.error e : Outcome α) >>= f = .error e := rfl

theorem bind_eq_ok {o : Outcome α} {f : α → Outcome β} {b : β} (h : o >>= f = .ok b) :
    ∃ a, o = .ok a ∧ f a = .ok b := by
  cases o with
  | ok a => exact ⟨a, rfl, h⟩
  | error e => cases h

theorem bind_eq_error {o : Outcome α} {f : α → Outcome β} {e : Failure} :
    o >>= f = .error e ↔ o = .error e ∨ ∃ a, o = .ok a ∧ f a = .error e := by
  cases o with
  | ok a =>
    constructor
    · intro h
      exact .inr ⟨a, rfl, h⟩
    · rintro (h | ⟨_, ha, h⟩)
      · cases h
      · cases ha
        exact h
  | error e' =>
    constructor
    · intro h
      cases h
      exact .inl rfl
    · rintro (h | ⟨_, h, _⟩)
      · cases h
        rfl
      · cases h

/-- What the second step needs from the first does not matter for its failure. -/
theorem bind_eq_error_iff_of {o : Outcome α} {f : α → Outcome β} {e : Failure} {q : Prop}
    (h : ∀ a, f a = .error e ↔ q) :
    o >>= f = .error e ↔ o = .error e ∨ (∃ a, o = .ok a) ∧ q := by
  rw [bind_eq_error]
  simp only [h, exists_and_right]

theorem bind_pure_eq_error_iff {o : Outcome α} {f : α → β} {e : Failure} :
    (o >>= fun a => pure (f a)) = .error e ↔ o = .error e := map_eq_error_iff

/-! ## Failures -/

/-- Every failure that an outcome may be satisfies a condition. -/
def FailsOnly (p : Failure → Prop) (o : Outcome α) : Prop := ∀ e, o = .error e → p e

variable {p q : Failure → Prop} {o : Outcome α}

theorem failsOnly_ok (a : α) : FailsOnly p (.ok a) := by
  intro e h
  cases h

theorem failsOnly_error {e : Failure} (h : p e) : FailsOnly p (.error e : Outcome α) := by
  intro e' h'
  cases h'
  exact h

theorem FailsOnly.mono (h : FailsOnly p o) (hpq : ∀ e, p e → q e) : FailsOnly q o :=
  fun e he => hpq e (h e he)

theorem FailsOnly.bind {f : α → Outcome β} (h : FailsOnly p o)
    (hf : ∀ a, o = .ok a → FailsOnly p (f a)) : FailsOnly p (o >>= f) := by
  cases o with
  | ok a => exact hf a rfl
  | error e => exact failsOnly_error (h e rfl)

theorem FailsOnly.map {f : α → β} (h : FailsOnly p o) : FailsOnly p (o.map f) := by
  cases o with
  | ok a => exact failsOnly_ok _
  | error e => exact failsOnly_error (h e rfl)

/-- Complaints and the faults of a list are all that may go wrong. -/
def FailsAmong (faults : List Fault) (o : Outcome α) : Prop := FailsOnly (Failure.Among faults) o

variable {fs gs : List Fault}

theorem failsAmong_ok (a : α) : FailsAmong fs (.ok a) := failsOnly_ok a

theorem failsAmong_complain (why : Complaint) : FailsAmong fs (complain why : Outcome α) :=
  failsOnly_error trivial

theorem failsAmong_faulty {cause : Fault} (h : cause ∈ fs) :
    FailsAmong fs (faulty cause : Outcome α) := failsOnly_error h

theorem FailsAmong.mono (h : FailsAmong fs o) (hfs : ∀ c ∈ fs, c ∈ gs) : FailsAmong gs o := by
  refine FailsOnly.mono h fun e he => ?_
  cases e with
  | badQuery why => exact he
  | fault cause => exact hfs cause he
  | _ => exact he.elim

theorem FailsAmong.map {f : α → β} (h : FailsAmong fs o) : FailsAmong fs (o.map f) :=
  FailsOnly.map h

/-- A value or a complaint. -/
def Settles (o : Outcome α) : Prop := (∃ a, o = .ok a) ∨ ∃ why, o = complain why

theorem settles_ok (a : α) : Settles (.ok a) := .inl ⟨a, rfl⟩

theorem settles_complain (why : Complaint) : Settles (complain why : Outcome α) := .inr ⟨why, rfl⟩

theorem ok_ne_error {ε : Type} {a : α} {e : ε} : (.ok a : Except ε α) ≠ .error e := nofun

theorem ok_ne_faulty {cause : Fault} {a : α} : (.ok a : Outcome α) ≠ faulty cause := nofun

theorem complain_ne_faulty {cause : Fault} {why : Complaint} :
    (complain why : Outcome α) ≠ faulty cause := nofun

theorem faulty_eq_error_iff {cause : Fault} {e : Failure} :
    (faulty cause : Outcome α) = .error e ↔ e = .fault cause := by
  simpa [faulty] using eq_comm

theorem faulty_eq_faulty_iff {cause cause' : Fault} :
    (faulty cause : Outcome α) = faulty cause' ↔ cause' = cause := by
  simpa [faulty] using eq_comm

theorem Settles.not_faulty {cause : Fault} (h : Settles o) : o ≠ faulty cause := by
  rcases h with ⟨a, rfl⟩ | ⟨why, rfl⟩
  · exact ok_ne_faulty
  · exact complain_ne_faulty

/-- What may fail with complaints and faults only settles unless it is a fault. -/
theorem FailsAmong.settles_iff (h : FailsAmong fs o) : Settles o ↔ ∀ cause, o ≠ faulty cause := by
  refine ⟨fun hsettles cause => hsettles.not_faulty, fun hno => ?_⟩
  cases o with
  | ok a => exact settles_ok a
  | error e =>
    have he := h e rfl
    cases e with
    | badQuery why => exact settles_complain why
    | fault cause => exact absurd rfl (hno cause)
    | _ => exact he.elim

/-- A failed step fails the operation that it is a step of. -/
theorem FailsAmong.error {e : Failure} (h : FailsAmong fs o) (hfs : ∀ c ∈ fs, c ∈ gs)
    (ho : o = .error e) : FailsAmong gs (.error e : Outcome β) :=
  failsOnly_error (h.mono hfs e ho)

/-! ## Steps in order -/

/-- An element of a list that is come to while a condition holds. -/
def Reaches (p : α → Prop) (xs : List α) (x : α) : Prop :=
  ∃ before after, xs = before ++ x :: after ∧ ∀ y ∈ before, p y

variable {p : α → Prop} {x y : α} {xs : List α}

theorem not_reaches_nil : ¬Reaches p [] x := by
  rintro ⟨before, after, hnil, _⟩
  simp at hnil

theorem reaches_cons : Reaches p (y :: xs) x ↔ x = y ∨ p y ∧ Reaches p xs x := by
  constructor
  · rintro ⟨before, after, hxs, hbefore⟩
    cases before with
    | nil =>
      cases hxs
      exact .inl rfl
    | cons z before =>
      cases hxs
      rw [List.forall_mem_cons] at hbefore
      exact .inr ⟨hbefore.1, before, after, rfl, hbefore.2⟩
  · rintro (rfl | ⟨hy, before, after, rfl, hbefore⟩)
    · exact ⟨[], xs, rfl, by simp⟩
    · exact ⟨y :: before, after, rfl, List.forall_mem_cons.mpr ⟨hy, hbefore⟩⟩

theorem Reaches.mem (h : Reaches p xs x) : x ∈ xs := by
  obtain ⟨before, after, rfl, _⟩ := h
  simp

theorem exists_reaches_cons {q : α → Prop} :
    (∃ x, Reaches p (y :: xs) x ∧ q x) ↔ q y ∨ p y ∧ ∃ x, Reaches p xs x ∧ q x := by
  simp only [reaches_cons, or_and_right, exists_or, exists_eq_left, and_assoc, exists_and_left]

/-- Where a condition fails somewhere, the first element that fails it is come to. -/
theorem exists_reaches_not (h : ¬∀ x ∈ xs, p x) : ∃ x, Reaches p xs x ∧ ¬p x := by
  induction xs with
  | nil => exact absurd nofun h
  | cons y rest ih =>
    rw [exists_reaches_cons]
    by_cases hy : p y
    · exact .inr ⟨hy, ih fun hrest => h (List.forall_mem_cons.mpr ⟨hy, hrest⟩)⟩
    · exact .inl hy

/-- Steps that may fail, in order: an element is come to while they succeed. -/
abbrev Steps (step : α → Outcome β) : List α → α → Prop := Reaches fun y => ∃ b, step y = .ok b

variable {step : α → Outcome β}

theorem mapM_cons_eq_error_iff {e : Failure} :
    (y :: xs).mapM step = .error e ↔
      step y = .error e ∨ (∃ b, step y = .ok b) ∧ xs.mapM step = .error e := by
  rw [List.mapM_cons]
  exact bind_eq_error_iff_of fun b => bind_pure_eq_error_iff

theorem mapM_eq_error_iff {e : Failure} :
    xs.mapM step = .error e ↔ ∃ x, Steps step xs x ∧ step x = .error e := by
  induction xs with
  | nil =>
    refine iff_of_false nofun ?_
    rintro ⟨x, hx, _⟩
    exact not_reaches_nil hx
  | cons y rest ih => rw [exists_reaches_cons, ← ih, mapM_cons_eq_error_iff]

theorem mapM_append_eq_error_iff {ys : List α} {e : Failure} :
    (xs ++ ys).mapM step = .error e ↔
      xs.mapM step = .error e ∨ (∃ bs, xs.mapM step = .ok bs) ∧ ys.mapM step = .error e := by
  rw [List.mapM_append]
  exact bind_eq_error_iff_of fun bs => bind_pure_eq_error_iff

theorem mapM_eq_ok_iff {bs : List β} :
    xs.mapM step = .ok bs ↔ List.Forall₂ (fun x b => step x = .ok b) xs bs := by
  induction xs generalizing bs with
  | nil =>
    rw [List.forall₂_nil_left_iff]
    exact ⟨fun h => (Except.ok.inj h).symm, fun h => by rw [h]; rfl⟩
  | cons x xs ih =>
    rw [List.forall₂_cons_left_iff, List.mapM_cons]
    constructor
    · intro h
      obtain ⟨b, hb, h⟩ := bind_eq_ok h
      obtain ⟨cs, hcs, h⟩ := bind_eq_ok h
      exact ⟨b, cs, hb, ih.mp hcs, (Except.ok.inj h).symm⟩
    · rintro ⟨b, cs, hb, hcs, rfl⟩
      rw [hb, ih.mpr hcs]
      rfl

theorem exists_mapM_eq_ok_iff :
    (∃ bs, xs.mapM step = .ok bs) ↔ ∀ x ∈ xs, ∃ b, step x = .ok b := by
  induction xs with
  | nil => exact iff_of_true ⟨[], rfl⟩ (by simp)
  | cons y rest ih =>
    rw [List.forall_mem_cons, ← ih, List.mapM_cons]
    constructor
    · rintro ⟨bs, h⟩
      obtain ⟨b, hb, h⟩ := bind_eq_ok h
      obtain ⟨cs, hcs, _⟩ := bind_eq_ok h
      exact ⟨⟨b, hb⟩, cs, hcs⟩
    · rintro ⟨⟨b, hb⟩, cs, hcs⟩
      rw [hb, hcs]
      exact ⟨b :: cs, rfl⟩

/-- Outcomes with the same failures succeed together. -/
theorem exists_ok_iff_of_error_iff {o : Outcome α} {o' : Outcome β}
    (h : ∀ e, o = .error e ↔ o' = .error e) : (∃ a, o = .ok a) ↔ ∃ b, o' = .ok b := by
  cases o with
  | error e =>
    rw [(h e).mp rfl]
    exact iff_of_false nofun nofun
  | ok a =>
    cases o' with
    | error e => exact absurd ((h e).mpr rfl) nofun
    | ok b => exact iff_of_true ⟨a, rfl⟩ ⟨b, rfl⟩

/-! ## Two runs -/

/-- Two outcomes with related values, or with the same failure. -/
inductive Alike (r : α → β → Prop) : Outcome α → Outcome β → Prop where
  | ok {a : α} {b : β} : r a b → Alike r (.ok a) (.ok b)
  | error (e : Failure) : Alike r (.error e) (.error e)

theorem alike_eq_iff {o o' : Outcome α} : Alike Eq o o' ↔ o = o' := by
  constructor
  · intro h
    cases h with
    | ok h => rw [h]
    | error => rfl
  · rintro rfl
    cases o with
    | ok a => exact .ok rfl
    | error e => exact .error e

theorem Alike.imp {r q : α → β → Prop} {o : Outcome α} {o' : Outcome β} (h : Alike r o o')
    (hrq : ∀ a b, r a b → q a b) : Alike q o o' := by
  cases h with
  | ok h => exact .ok (hrq _ _ h)
  | error e => exact .error e

theorem Alike.map {γ δ : Type} {r : α → β → Prop} {q : γ → δ → Prop} {o : Outcome α}
    {o' : Outcome β} {f : α → γ} {g : β → δ} (h : Alike r o o')
    (hfg : ∀ a b, r a b → q (f a) (g b)) : Alike q (o.map f) (o'.map g) := by
  cases h with
  | ok h => exact .ok (hfg _ _ h)
  | error e => exact .error e

/-- Steps that come to alike outcomes, one by one, do so in order. -/
theorem alike_mapM {γ δ : Type} {r : β → δ → Prop} {f : α → Outcome β} {g : γ → Outcome δ}
    {xs : List α} {ys : List γ} (h : List.Forall₂ (fun x y => Alike r (f x) (g y)) xs ys) :
    Alike (List.Forall₂ r) (xs.mapM f) (ys.mapM g) := by
  induction h with
  | nil => exact .ok .nil
  | @cons x y xs ys hxy _ ih =>
    rw [List.mapM_cons, List.mapM_cons]
    generalize f x = o at hxy
    generalize g y = o' at hxy
    cases hxy with
    | error e => exact .error e
    | ok hxy =>
      generalize xs.mapM f = rest at ih
      generalize ys.mapM g = rest' at ih
      cases ih with
      | error e => exact .error e
      | ok hrest => exact .ok (.cons hxy hrest)

end Outcome
end EventQuery
