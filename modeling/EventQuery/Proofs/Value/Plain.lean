import EventQuery.Backend.Client
import EventQuery.Proofs.Binary64.Range
import EventQuery.Proofs.Failure.Statement

/-!
# EventQuery.Proofs.Value.Plain

Values as requests and events hold them: neither decimals nor tuples, unless inside an object. They
come from the store as they are (`decode_of_isPlain`), and no value that came from the store is
compared with one of them in vain (`holds_decode_ne`): the one comparison that is a mistake to ask
for is that of a decimal with NaN.

Two more kinds of value are out of reach: times that the calendar has no year for (`OutOfYears`) and
integers that no double holds (`BeyondDouble`).
-/

namespace EventQuery

open Outcome

namespace Value

mutual

/-- Neither a decimal nor a tuple, and in an array no such items. -/
def isPlain : Value → Bool
  | decimal _ | tuple _ => false
  | array items => arePlain items
  | _ => true

def arePlain : List Value → Bool
  | [] => true
  | v :: rest => v.isPlain && arePlain rest

end

open Client (decode decodeItems)

mutual

theorem decode_of_isPlain {v : Value} (h : v.isPlain = true) : decode v = v := by
  cases v with
  | decimal d => cases h
  | array items => rw [decode, decodeItems_of_arePlain h]
  | _ => rfl

theorem decodeItems_of_arePlain {items : List Value} (h : arePlain items = true) :
    decodeItems items = items := by
  cases items with
  | nil => rfl
  | cons v rest =>
    rw [arePlain, Bool.and_eq_true] at h
    rw [decodeItems, decode_of_isPlain h.1, decodeItems_of_arePlain h.2]

end

theorem isDecimal_decode (v : Value) : (decode v).isDecimal = false := by
  cases v <;> rfl

theorem isDecimal_of_isPlain {v : Value} (h : v.isPlain = true) : v.isDecimal = false := by
  cases v with
  | decimal d => cases h
  | _ => rfl

theorem compareScalar?_ne {x y : Value} (hx : x.isDecimal = false) (hy : y.isDecimal = false) :
    compareScalar? x y ≠ .error .undefinedDecimal := by
  unfold compareScalar?
  split
  · nofun
  · nofun
  · split <;> nofun
  · nofun
  · nofun
  · split
    · split
      · nofun
      · simp [hx, hy]
    · nofun

mutual

/-- A value from the store is compared with a plain one, item by item in arrays; a tuple only meets
values that it has no order with. -/
theorem compare?_decode_ne (x : Value) {y : Value} (hy : y.isPlain = true) :
    compare? (decode x) y ≠ .error .undefinedDecimal := by
  have hscalar : compareScalar? (decode x) y ≠ .error .undefinedDecimal :=
    compareScalar?_ne (isDecimal_decode x) (isDecimal_of_isPlain hy)
  cases y with
  | array ys =>
    cases x with
    | array xs =>
      rw [decode, compare?]
      exact compareItems?_decode_ne xs hy
    | _ => exact hscalar
  | tuple ys => cases hy
  | _ =>
    rw [compare?]
    · exact hscalar
    · nofun
    · nofun

theorem compareItems?_decode_ne (xs : List Value) {ys : List Value} (hys : arePlain ys = true) :
    compareItems? (decodeItems xs) ys ≠ .error .undefinedDecimal := by
  cases xs with
  | nil => cases ys <;> nofun
  | cons x xs =>
    cases ys with
    | nil => nofun
    | cons y ys =>
      rw [arePlain, Bool.and_eq_true] at hys
      rw [decodeItems, compareItems?]
      split
      · exact compareItems?_decode_ne xs hys.2
      · exact compare?_decode_ne x hys.1

end

theorem holds_decode_ne (op : Operator) (x : Value) {y : Value} (hy : y.isPlain = true) :
    op.holds (decode x) y ≠ .error .undefinedDecimal := by
  have hcompare := compare?_decode_ne x hy
  unfold Operator.holds
  split
  · nofun
  · nofun
  · split
    · rename_i m hm
      intro h
      cases h
      exact hcompare hm
    · nofun
    · nofun

/-! ## Values out of reach -/

/-- A time that is in none of the years of the calendar. -/
def OutOfYears (v : Value) : Prop :=
  ∃ t, v.moment? = some t ∧ Calendar.inYears t.instant = false

def BeyondDouble (v : Value) : Prop := ∃ n, v = .int n ∧ Binary64.limit ≤ n.natAbs

theorem utc?_eq_error_iff {v : Value} {e : Failure} :
    v.utc? = .error e ↔ e = .fault .yearOutOfRange ∧ v.OutOfYears := by
  unfold utc? OutOfYears
  cases v.moment? with
  | none => simp
  | some t =>
    cases hyears : Calendar.inYears t.instant with
    | true => simp [DateTime.inUtc, hyears, Except.map]
    | false =>
      simp only [DateTime.inUtc, hyears]
      simpa [Except.map, faulty, hyears] using eq_comm

/-- A number with too many digits to be shown is too many milliseconds for a time. -/
theorem moment?_of_not_isShowable {v : Value} (h : v.isShowable = false) : v.moment? = none := by
  cases v with
  | int n =>
    have hlong : ¬(Nat.toDigits 10 n.natAbs).length ≤ 19 := by
      have hdigits := of_decide_eq_false h
      rw [show Numeral.maxDigits = 4300 from rfl] at hdigits
      omega
    have hlarge : ¬n.natAbs < 10 ^ 19 := fun hlt =>
      hlong ((Nat.length_toDigits_le_iff (by decide) (by decide)).mpr hlt)
    have hword : Epoch.fitsWord (n * 1000) = false := by
      rw [Epoch.fitsWord, show twoTo 63 = 9223372036854775808 from rfl, decide_eq_false_iff_not]
      omega
    rw [moment?, Epoch.ofMillis?, hword]
    rfl
  | float x => cases h
  | text s => cases h
  | date d => cases h
  | datetime t => cases h
  | _ => rfl

end Value

/-- A record whose values are plain. -/
def Record.isPlain (row : Record) : Bool := row.all fun field => field.2.isPlain

theorem Record.isPlain_value {row : Record} (h : row.isPlain = true) (key : String) :
    (row.value key).isPlain = true := by
  unfold Record.value
  cases hfind : Record.find? row key with
  | none => rfl
  | some v =>
    obtain ⟨before, after, rfl, _⟩ := List.lookup_eq_some_iff.mp hfind
    exact List.all_eq_true.mp h (key, v) (by simp)

namespace Client

theorem find?_decodeRecord (raw : Record) (name : String) :
    Record.find? (decodeRecord raw) name = (Record.find? raw name).map decode := by
  induction raw with
  | nil => rfl
  | cons field rest ih =>
    obtain ⟨key, v⟩ := field
    unfold Record.find? decodeRecord at ih ⊢
    rw [List.map_cons, List.lookup_cons, List.lookup_cons]
    cases name == key with
    | true => rfl
    | false => exact ih

end Client
end EventQuery
