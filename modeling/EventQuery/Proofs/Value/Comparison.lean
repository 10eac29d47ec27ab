import EventQuery.Proofs.Filter.NaturalOrder
import EventQuery.Proofs.Value.Equality

/-!
# EventQuery.Proofs.Value.Comparison

The order of values against their equality, for values of every kind, also inside sequences.
Whatever has an order is equal exactly when the order says so (`stands_of_compare?`), and two values
the other way round have the reverse order, or none for the same reason (`compare?_swap`).
-/

namespace EventQuery

/-! ## Orders the other way round -/

theorem Quantity.ofRats_swap (p q : Rat) : ofRats q p = (ofRats p q).swap := by
  unfold ofRats
  grind [Ordering.swap]

theorem Quantity.compare?_swap (p q : Quantity) :
    q.compare? p = (p.compare? q).map Ordering.swap := by
  cases p with
  | undefined => cases q <;> rfl
  | infinite m =>
    cases q with
    | undefined => rfl
    | infinite n => cases m <;> cases n <;> rfl
    | finite r => cases m <;> rfl
  | finite r =>
    cases q with
    | undefined => rfl
    | infinite n => cases n <;> rfl
    | finite t => exact congrArg some (ofRats_swap r t)

theorem Quantity.exists_extended {q : Quantity} (h : q ≠ .undefined) :
    ∃ a, q.extended? = some a := by
  cases q with
  | undefined => exact absurd rfl h
  | infinite negative => cases negative <;> exact ⟨_, rfl⟩
  | finite r => exact ⟨_, rfl⟩

theorem Binary64.quantity_ne_undefined {x : Binary64} (h : x.isNaN = false) :
    x.quantity ≠ .undefined := by
  rw [quantity, h, if_neg Bool.false_ne_true]
  split <;> exact Quantity.noConfusion

/-- The same reason with the two values the other way round. -/
def Mismatch.swap : Mismatch → Mismatch
  | kinds left right => .kinds right left
  | m => m

namespace Value

variable {u v x y : Value} {p q : Quantity} {o : Ordering} {xs ys : List Value}

theorem ofInts_swap (m n : Int) : ofInts n m = (ofInts m n).swap := by
  unfold ofInts
  grind [Ordering.swap]

theorem ofInts_eq_iff (m n : Int) : ofInts m n = .eq ↔ m = n := by
  unfold ofInts
  grind

theorem ofTexts_swap (s t : String) : ofTexts t s = (ofTexts s t).swap := by
  unfold ofTexts
  rcases lt_trichotomy s t with h | rfl | h
  · simp [h, h.not_gt]
  · simp
  · simp [h, h.not_gt]

theorem ofTexts_eq_iff (s t : String) : ofTexts s t = .eq ↔ s = t := by
  unfold ofTexts
  rcases lt_trichotomy s t with h | rfl | h
  · simp [h, h.ne]
  · simp
  · simp [h, h.not_gt, h.ne']

theorem compareScalar?_of_quantity (hu : u.quantity? = some p) (hv : v.quantity? = some q) :
    u.compareScalar? v = match p.compare? q with
      | some o => .ok (some o)
      | none => if u.isDecimal || v.isDecimal then .error .undefinedDecimal else .ok none := by
  unfold compareScalar?
  split
  · cases hu
  · cases hu
  · cases hu
  · cases hu
  · cases hu
  · cases hcompare : p.compare? q with
    | none => simp only [hu, hv, hcompare]
    | some o => simp only [hu, hv, hcompare]

/-- Numbers are compared by their quantities; what is undefined has no order, and beside a decimal
there is a reason to give for it. -/
theorem compare?_of_quantity (hu : u.quantity? = some p) (hv : v.quantity? = some q) :
    u.compare? v = match p.compare? q with
      | some o => .ok (some o)
      | none => if u.isDecimal || v.isDecimal then .error .undefinedDecimal else .ok none := by
  have hscalar : u.compare? v = u.compareScalar? v := by
    cases u <;> first | cases hu; done | rfl
  rw [hscalar, compareScalar?_of_quantity hu hv]

/-! ## Order and equality -/

theorem exists_stands_of_quantity (hu : u.quantity? = some p) (hv : v.quantity? = some q)
    (hp : p ≠ .undefined) (hq : q ≠ .undefined) : ∃ o, u.Stands v o := by
  obtain ⟨a, ha⟩ := Quantity.exists_extended hp
  obtain ⟨b, hb⟩ := Quantity.exists_extended hq
  exact ⟨_, stands_of_quantity hu hv (Quantity.compare?_eq ha hb)⟩

theorem same_of_compareScalar? (hx : x.isScalar = true) (h : x.compareScalar? y = .ok (some o)) :
    x.same y = (o == .eq) := by
  rw [same_of_isScalar hx]
  unfold compareScalar? at h
  split at h
  · cases h
    rw [Bool.eq_iff_iff, beq_iff_eq, ofTexts_eq_iff]
    simp [sameScalar]
  · rename_i d e
    cases h
    rw [Bool.eq_iff_iff, beq_iff_eq, ofInts_eq_iff]
    obtain ⟨m⟩ := d
    obtain ⟨n⟩ := e
    simp [sameScalar]
  · rename_i t s
    split at h
    · rename_i ht hs
      cases h
      rw [Bool.eq_iff_iff, beq_iff_eq, ofInts_eq_iff]
      simp [sameScalar, DateTime.same, ht, hs]
    · rename_i ht hs
      cases h
      rw [Bool.eq_iff_iff, beq_iff_eq, ofInts_eq_iff]
      simp [sameScalar, DateTime.same, ht, hs]
    · cases h
  · cases h
  · cases h
  · split at h
    · rename_i p q hp hq
      split at h
      · rename_i o' hcompare
        cases h
        have hstands := stands_of_quantity hp hq hcompare
        rw [← same_of_isScalar hx, hstands.same_eq]
      · split at h <;> cases h
    · cases h

mutual

/-- Values with an order are equal exactly when the order says so. -/
theorem same_of_compare? {x y : Value} {o : Ordering} (h : x.compare? y = .ok (some o)) :
    x.same y = (o == .eq) := by
  cases x with
  | array xs =>
    cases y with
    | array ys => exact sameItems_of_compareItems? h
    | _ => cases h
  | tuple xs =>
    cases y with
    | tuple ys => exact sameItems_of_compareItems? h
    | _ => cases h
  | object fields => cases y <;> cases h
  | _ => exact same_of_compareScalar? rfl h

theorem sameItems_of_compareItems? {xs ys : List Value} {o : Ordering}
    (h : compareItems? xs ys = .ok (some o)) : sameItems xs ys = (o == .eq) := by
  cases xs with
  | nil =>
    cases ys <;> cases h <;> rfl
  | cons x xs =>
    cases ys with
    | nil =>
      cases h
      rfl
    | cons y ys =>
      rw [compareItems?] at h
      rw [sameItems]
      split at h
      · rename_i hsame
        rw [hsame, Bool.true_and, sameItems_of_compareItems? h]
      · rename_i hdiffer
        have heq := same_of_compare? h
        rw [Bool.not_eq_true] at hdiffer
        rw [hdiffer, Bool.false_and, ← heq, hdiffer]

end

theorem stands_of_compare? (h : x.compare? y = .ok (some o)) : x.Stands y o :=
  ⟨same_of_compare? h, h⟩

/-! ## The order the other way round -/

/-- What a comparison comes to with the two values the other way round. -/
def reversed : Except Mismatch (Option Ordering) → Except Mismatch (Option Ordering)
  | .ok o => .ok (o.map Ordering.swap)
  | .error m => .error m.swap

theorem compareScalar?_swap_of_quantity (hx : x.quantity? = some p) (hy : y.quantity? = some q) :
    y.compareScalar? x = reversed (x.compareScalar? y) := by
  rw [compareScalar?_of_quantity hx hy, compareScalar?_of_quantity hy hx, p.compare?_swap q,
    Bool.or_comm]
  cases p.compare? q with
  | some o => rfl
  | none =>
    dsimp only [Option.map_none]
    split <;> rfl

theorem compareScalar?_swap (x y : Value) :
    y.compareScalar? x = reversed (x.compareScalar? y) := by
  cases hx : x.quantity? with
  | some p =>
    cases hy : y.quantity? with
    | some q => exact compareScalar?_swap_of_quantity hx hy
    | none => cases x <;> first | cases hx; done | (cases y <;> first | cases hy; done | rfl)
  | none =>
    cases x with
    | text s =>
      cases y with
      | text t => exact congrArg (fun o => Except.ok (some o)) (ofTexts_swap s t)
      | _ => rfl
    | date d =>
      cases y with
      | date e => exact congrArg (fun o => Except.ok (some o)) (ofInts_swap d.days e.days)
      | _ => rfl
    | datetime t =>
      cases y with
      | datetime s =>
        obtain ⟨wall, offset⟩ := t
        obtain ⟨wall', offset'⟩ := s
        cases offset <;> cases offset' <;>
          first | rfl | exact congrArg (fun o => Except.ok (some o)) (ofInts_swap _ _)
      | _ => rfl
    | null | array _ | tuple _ | object _ => cases y <;> rfl
    | _ => cases hx

theorem compare?_of_ne (harray : ∀ xs, x ≠ array xs) (htuple : ∀ xs, x ≠ tuple xs) :
    x.compare? y = x.compareScalar? y := by
  rw [compare?]
  · exact fun xs _ hx _ => harray xs hx
  · exact fun xs _ hx _ => htuple xs hx

theorem compare?_of_ne_right (harray : ∀ ys, y ≠ array ys) (htuple : ∀ ys, y ≠ tuple ys) :
    x.compare? y = x.compareScalar? y := by
  rw [compare?]
  · exact fun _ ys _ hy => harray ys hy
  · exact fun _ ys _ hy => htuple ys hy

mutual

/-- Two values the other way round have the reverse order, or none for the same reason. -/
theorem compare?_swap {x y : Value} (hx : x.hasDistinctNames = true)
    (hy : y.hasDistinctNames = true) : y.compare? x = reversed (x.compare? y) := by
  cases x with
  | array xs =>
    cases y with
    | array ys => exact compareItems?_swap hx hy
    | _ => rfl
  | tuple xs =>
    cases y with
    | tuple ys => exact compareItems?_swap hx hy
    | _ => rfl
  | _ =>
    rw [compare?_of_ne_right (x := y), compare?_of_ne]
    · exact compareScalar?_swap _ y
    all_goals nofun

theorem compareItems?_swap {xs ys : List Value} (hxs : haveDistinctNames xs = true)
    (hys : haveDistinctNames ys = true) :
    compareItems? ys xs = reversed (compareItems? xs ys) := by
  cases xs with
  | nil => cases ys <;> rfl
  | cons x xs =>
    cases ys with
    | nil => rfl
    | cons y ys =>
      rw [haveDistinctNames, Bool.and_eq_true] at hxs hys
      rw [compareItems?, compareItems?, same_comm_of_names hys.1 hxs.1]
      split
      · exact compareItems?_swap hxs.2 hys.2
      · exact compare?_swap hxs.1 hys.1

end

end Value
end EventQuery
