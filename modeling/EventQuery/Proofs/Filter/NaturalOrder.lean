import EventQuery.Column
import EventQuery.Value.Order
import Mathlib.Algebra.Order.Ring.Unbundled.Rat
import Mathlib.Data.String.Basic
import Mathlib.Order.WithBot

/-!
# EventQuery.Proofs.Filter.NaturalOrder

The natural order of each kind of column. A value of a kind has a key in a linear order: the exact
number, infinities included; the characters of a text, which are ordered by code point; false
before true; the instant, where a date and a time without an offset are read as UTC. Null and NaN
have no key, and a time has one only in the years of the calendar. `ColumnKind.compares` compares
values by their keys; it is what a comparison of a filter is to mean. `stands_of_key` says that
values are in the order of their keys already, except that times need to have an offset first.
-/

namespace EventQuery

/-! ## Comparisons in an order -/

namespace Operator

variable {α : Type} [LinearOrder α]

/-- What a comparison says in a linear order. -/
def Relates (op : Operator) (a b : α) : Prop :=
  match op with
  | eq => a = b
  | gt => b < a
  | gte => b ≤ a
  | lt => a < b
  | lte => a ≤ b
  | ne => a ≠ b

instance : (op : Operator) → (a b : α) → Decidable (op.Relates a b)
  | eq, a, b => inferInstanceAs (Decidable (a = b))
  | gt, a, b => inferInstanceAs (Decidable (b < a))
  | gte, a, b => inferInstanceAs (Decidable (b ≤ a))
  | lt, a, b => inferInstanceAs (Decidable (a < b))
  | lte, a, b => inferInstanceAs (Decidable (a ≤ b))
  | ne, a, b => inferInstanceAs (Decidable (a ≠ b))

theorem accepts_cmp (op : Operator) (a b : α) : op.accepts (cmp a b) = decide (op.Relates a b) := by
  rw [Bool.eq_iff_iff, decide_eq_true_iff]
  rcases lt_trichotomy a b with hlt | rfl | hgt
  · rw [(cmp_eq_lt_iff a b).mpr hlt]
    cases op <;> simp [accepts, Relates, hlt, hlt.le, hlt.ne]
  · rw [cmp_self_eq_eq]
    cases op <;> simp [accepts, Relates]
  · rw [(cmp_eq_gt_iff a b).mpr hgt]
    cases op <;> simp [accepts, Relates, hgt, hgt.le, hgt.ne']

end Operator

/-! ## Keys -/

/-- An exact number, or an infinity below or above all of them. -/
abbrev Extended := WithBot (WithTop Rat)

namespace Quantity

def extended? : Quantity → Option Extended
  | undefined => none
  | infinite true => some ⊥
  | infinite false => some (⊤ : WithTop Rat)
  | finite q => some (q : WithTop Rat)

theorem compare?_eq {p q : Quantity} {a b : Extended} (hp : p.extended? = some a)
    (hq : q.extended? = some b) : p.compare? q = some (cmp a b) := by
  unfold cmp cmpUsing
  cases p with
  | undefined => cases hp
  | infinite m =>
    cases q with
    | undefined => cases hq
    | infinite n => cases m <;> cases n <;> cases hp <;> cases hq <;> simp [compare?]
    | finite r => cases m <;> cases hp <;> cases hq <;> simp [compare?]
  | finite r =>
    cases q with
    | undefined => cases hq
    | infinite n => cases n <;> cases hp <;> cases hq <;> simp [compare?]
    | finite s =>
      cases hp
      cases hq
      simp [compare?, ofRats]

end Quantity

namespace ColumnKind

/-- What values of a kind are ordered by. -/
def Key : ColumnKind → Type
  | number => Extended
  | text => List Char
  | boolean => Bool
  | timestamp => Int
  | other => Empty

instance : (k : ColumnKind) → LinearOrder k.Key
  | number => inferInstanceAs (LinearOrder Extended)
  | text => inferInstanceAs (LinearOrder (List Char))
  | boolean => inferInstanceAs (LinearOrder Bool)
  | timestamp => inferInstanceAs (LinearOrder Int)
  | other => inferInstanceAs (LinearOrder Empty)

/-- The instant of a time in the years of the calendar. -/
def instant? (t : DateTime) : Option Int :=
  if Calendar.inYears t.instant then some t.instant else none

def key? : (k : ColumnKind) → Value → Option k.Key
  | number, .int n => (Quantity.finite n).extended?
  | number, .float x => x.quantity.extended?
  | text, .text s => some s.toList
  | boolean, .bool b => some b
  | timestamp, .date d => instant? (.ofDate d)
  | timestamp, .datetime t => instant? t
  | _, _ => none

/-- Whether a value is one of a kind, and neither null nor NaN. -/
def Has (k : ColumnKind) (v : Value) : Prop := ∃ a, k.key? v = some a

/-- Whether two values of a kind satisfy a comparison in the natural order of the kind. -/
def compares (k : ColumnKind) (op : Operator) (u v : Value) : Bool :=
  match k.key? u, k.key? v with
  | some a, some b => decide (op.Relates a b)
  | _, _ => false

theorem exists_key_of_compares {k : ColumnKind} {op : Operator} {u v : Value}
    (h : k.compares op u v = true) : ∃ a b, k.key? u = some a ∧ k.key? v = some b := by
  unfold compares at h
  split at h
  · rename_i a b ha hb
    exact ⟨a, b, ha, hb⟩
  · cases h

section Cases

variable {v : Value}

theorem Has.number_cases (h : number.Has v) : (∃ n, v = .int n) ∨ ∃ x, v = .float x := by
  obtain ⟨_, h⟩ := h
  cases v with
  | int n => exact .inl ⟨n, rfl⟩
  | float x => exact .inr ⟨x, rfl⟩
  | _ => cases h

theorem Has.text_cases (h : text.Has v) : ∃ s, v = .text s := by
  obtain ⟨_, h⟩ := h
  cases v with
  | text s => exact ⟨s, rfl⟩
  | _ => cases h

theorem Has.boolean_cases (h : boolean.Has v) : ∃ b, v = .bool b := by
  obtain ⟨_, h⟩ := h
  cases v with
  | bool b => exact ⟨b, rfl⟩
  | _ => cases h

theorem Has.timestamp_cases (h : timestamp.Has v) : (∃ d, v = .date d) ∨ ∃ t, v = .datetime t := by
  obtain ⟨_, h⟩ := h
  cases v with
  | date d => exact .inl ⟨d, rfl⟩
  | datetime t => exact .inr ⟨t, rfl⟩
  | _ => cases h

end Cases

end ColumnKind

/-! ## Values in the order of their keys -/

/-- Two values are equal or not, and ordered, as an ordering says. -/
structure Value.Stands (u v : Value) (o : Ordering) : Prop where
  same_eq : u.same v = (o == .eq)
  compare?_eq : u.compare? v = .ok (some o)

theorem Value.Stands.holds_eq {u v : Value} {o : Ordering} (h : u.Stands v o) (op : Operator) :
    op.holds u v = .ok (op.accepts o) := by
  cases op with
  | eq => simp [Operator.holds, Operator.accepts, h.same_eq]
  | ne => simp [Operator.holds, Operator.accepts, h.same_eq, bne]
  | _ => simp [Operator.holds, h.compare?_eq]

/-- Numbers of all kinds are in the order of their quantities. -/
theorem Value.stands_of_quantity {u v : Value} {p q : Quantity} {o : Ordering}
    (hu : u.quantity? = some p) (hv : v.quantity? = some q) (h : p.compare? q = some o) :
    u.Stands v o := by
  have hsame : u.same v = p.same q := by
    cases u <;> cases hu <;> cases v <;> cases hv <;> rfl
  have hcompare : u.compare? v = .ok (some o) := by
    cases u <;> cases hu <;> cases v <;> cases hv <;>
      simp [Value.compare?, Value.compareScalar?, Value.quantity?, h]
  refine ⟨?_, hcompare⟩
  rw [hsame, Quantity.same, h]
  cases o <;> rfl

namespace ColumnKind

variable {u v : Value}

theorem quantity?_of_key {a : Extended} (h : number.key? v = some a) :
    ∃ q, v.quantity? = some q ∧ q.extended? = some a := by
  rcases Has.number_cases ⟨a, h⟩ with ⟨n, rfl⟩ | ⟨x, rfl⟩
  · exact ⟨_, rfl, h⟩
  · exact ⟨_, rfl, h⟩

/-- Apart from times, values of one kind are in the order of their keys. -/
theorem stands_of_key {k : ColumnKind} (hk : k ≠ .timestamp) {a b : k.Key}
    (hu : k.key? u = some a) (hv : k.key? v = some b) : u.Stands v (cmp a b) := by
  cases k with
  | timestamp => exact absurd rfl hk
  | number =>
    obtain ⟨p, hp, ha⟩ := quantity?_of_key hu
    obtain ⟨q, hq, hb⟩ := quantity?_of_key hv
    exact Value.stands_of_quantity hp hq (Quantity.compare?_eq ha hb)
  | text =>
    cases u <;> cases hu
    cases v <;> cases hv
    rename_i s t
    have horder : Value.ofTexts s t = cmp (α := text.Key) s.toList t.toList := by
      unfold Value.ofTexts cmp cmpUsing
      congr
    refine ⟨?_, congrArg (fun o => Except.ok (some o)) horder⟩
    have hkeys := cmp_eq_eq_iff (α := text.Key) s.toList t.toList
    rw [Bool.eq_iff_iff, beq_iff_eq]
    exact beq_iff_eq.trans (String.toList_inj.symm.trans hkeys.symm)
  | boolean =>
    cases u <;> cases hu
    cases v <;> cases hv
    refine Value.stands_of_quantity rfl rfl ?_
    cases a <;> cases b <;> decide
  | other => cases hu

/-- Times with an offset are in the order of their instants. -/
theorem stands_datetime {t s : DateTime} (ht : t.offset.isSome = true)
    (hs : s.offset.isSome = true) :
    (Value.datetime t).Stands (.datetime s) (cmp t.instant s.instant) := by
  obtain ⟨wall, offset⟩ := t
  obtain ⟨wall', offset'⟩ := s
  cases offset with
  | none => cases ht
  | some n =>
    cases offset' with
    | none => cases hs
    | some m =>
      refine ⟨?_, rfl⟩
      rw [Bool.eq_iff_iff, beq_iff_eq, cmp_eq_eq_iff]
      simp [Value.same, Value.sameScalar, DateTime.same]

theorem instant?_eq_some {t : DateTime} {a : Int} (h : instant? t = some a) :
    Calendar.inYears t.instant = true ∧ a = t.instant := by
  unfold instant? at h
  split at h
  · rename_i hyears
    cases h
    exact ⟨hyears, rfl⟩
  · cases h

end ColumnKind
end EventQuery
