import EventQuery.Proofs.Failure.Statement
import EventQuery.Timeframe
import Mathlib.Data.List.TakeWhile

/-!
# EventQuery.Proofs.Timeframe.Faults

The timeframes that are neither resolved nor refused. `relative?_eq_some_iff` is the grammar of
relative expressions, and `Bounds` what a bound of an absolute timeframe says. A timeframe in text
comes to no window, to a window or to a refusal, unless its amount has more digits than are read
(`Overlong`) or a bound lies outside the years of the calendar (`Unreachable`): these two are faults
(`resolves_or_refuses_iff`).
-/

namespace EventQuery
namespace Timeframe

/-! ## Relative expressions -/

theorem Span.ofName?_eq_some_iff {s : String} {span : Span} :
    ofName? s = some span ↔ s = span.name := by
  constructor
  · intro h
    have hname := List.find?_some h
    exact (beq_iff_eq.mp hname).symm
  · rintro rfl
    exact ofName?_name span

/-- A relative expression in text. -/
def Relative.text (r : Relative) : String :=
  (if r.previous then "previous_" else "this_") ++ .ofList r.digits ++ "_" ++ r.span.name

/-- The amount and the unit of an expression, after its first word. -/
theorem parts_eq_some_iff {previous : Bool} {rest : List Char} {r : Relative} :
    (match rest.dropWhile Text.isDigit with
      | '_' :: unit =>
        if (rest.takeWhile Text.isDigit).isEmpty then none
        else (Span.ofName? (String.ofList unit)).map fun span =>
          (⟨previous, rest.takeWhile Text.isDigit, span⟩ : Relative)
      | _ => none) = some r ↔
      r.previous = previous ∧ r.digits ≠ [] ∧ (∀ c ∈ r.digits, Text.isDigit c = true) ∧
        rest = r.digits ++ '_' :: r.span.name.toList := by
  have hmark : Text.isDigit '_' = false := by decide
  constructor
  · intro h
    split at h
    · rename_i unit hunit
      split at h
      · cases h
      · rename_i hdigits
        obtain ⟨span, hspan, rfl⟩ := Option.map_eq_some_iff.mp h
        have hname := Span.ofName?_eq_some_iff.mp hspan
        refine ⟨rfl, by simpa using hdigits, fun c hc => List.mem_takeWhile_imp hc, ?_⟩
        rw [← hname, String.toList_ofList, ← hunit, List.takeWhile_append_dropWhile]
    · cases h
  · rintro ⟨rfl, hne, hdigits, rfl⟩
    have htake : (r.digits ++ '_' :: r.span.name.toList).takeWhile Text.isDigit = r.digits := by
      rw [List.takeWhile_append_of_pos hdigits, List.takeWhile_cons_of_neg (by simp [hmark]),
        List.append_nil]
    have hdrop : (r.digits ++ '_' :: r.span.name.toList).dropWhile Text.isDigit
        = '_' :: r.span.name.toList := by
      rw [List.dropWhile_append_of_pos hdigits, List.dropWhile_cons_of_neg (by simp [hmark])]
    simp [htake, hdrop, hne, Span.ofName?_name]

/-- What is read is what is written: a word, digits and a unit. -/
theorem relative?_eq_some_iff {s : String} {r : Relative} :
    relative? s = some r ↔
      s = r.text ∧ r.digits ≠ [] ∧ ∀ c ∈ r.digits, Text.isDigit c = true := by
  have htext : s = r.text ↔ s.toList = (if r.previous then "previous_" else "this_").toList
      ++ (r.digits ++ '_' :: r.span.name.toList) := by
    rw [← String.toList_inj, Relative.text]
    simp
  have hthis : "this_".toList = ['t', 'h', 'i', 's', '_'] := rfl
  have hprevious : "previous_".toList = ['p', 'r', 'e', 'v', 'i', 'o', 'u', 's', '_'] := rfl
  rw [htext]
  unfold relative?
  dsimp only
  split
  · rename_i rest hs
    rw [hs]
    refine parts_eq_some_iff.trans ?_
    cases r.previous <;> simp [hthis, hprevious, and_comm, and_left_comm]
  · rename_i rest hs
    rw [hs]
    refine parts_eq_some_iff.trans ?_
    cases r.previous <;> simp [hthis, hprevious, and_comm, and_left_comm]
  · rename_i hno hno'
    refine iff_of_false nofun ?_
    rintro ⟨hs, _⟩
    cases hp : r.previous with
    | false => exact hno _ (by rw [hs, hp]; rfl)
    | true => exact hno' _ (by rw [hs, hp]; rfl)

/-- A relative expression whose amount has more digits than are read. -/
def Overlong (s : String) : Prop :=
  ∃ r : Relative, s = r.text ∧ Numeral.maxDigits < r.digits.length ∧
    ∀ c ∈ r.digits, Text.isDigit c = true

/-- A bound says a time, in the years of the calendar or not. -/
def Bounds (fields : Record) (field : String) (t : DateTime) : Prop :=
  ∃ s, Record.value fields field = .text s ∧ (Text.trimmed s).isEmpty = false ∧
    Timestamp.read? s = some t

/-- A bound is the time that it says, or a fault where that is outside the years, or is refused. -/
theorem bound_cases (fields : Record) (field : String) :
    (∃ t, Bounds fields field t ∧ bound fields field = t.inUtc) ∨
      (∀ t, ¬Bounds fields field t) ∧ ∃ why, bound fields field = complain why := by
  unfold bound Bounds
  cases hv : Record.value fields field with
  | text s =>
    dsimp only [Value.text?]
    by_cases hblank : (Text.trimmed s).isEmpty = true
    · rw [if_pos hblank]
      refine .inr ⟨?_, _, rfl⟩
      rintro t ⟨_, hs, hfull, _⟩
      cases hs
      rw [hblank] at hfull
      cases hfull
    · rw [if_neg hblank]
      cases ht : Timestamp.read? s with
      | none =>
        refine .inr ⟨?_, _, rfl⟩
        rintro t ⟨_, hs, _, hread⟩
        cases hs
        rw [ht] at hread
        cases hread
      | some t => exact .inl ⟨t, ⟨s, rfl, by simpa using hblank, ht⟩, rfl⟩
  | _ =>
    refine .inr ⟨?_, _, rfl⟩
    rintro t ⟨_, hs, _⟩
    cases hs

theorem Bounds.unique {fields : Record} {field : String} {t u : DateTime}
    (ht : Bounds fields field t) (hu : Bounds fields field u) : t = u := by
  obtain ⟨s, hs, _, ht⟩ := ht
  obtain ⟨s', hs', _, hu⟩ := hu
  rw [hs] at hs'
  cases hs'
  rw [ht] at hu
  cases hu
  rfl

/-- The start lies outside the years, or else the end does. -/
def OutOfYears (fields : Record) : Prop :=
  (∃ t, Bounds fields "start" t ∧ Calendar.inYears t.instant = false) ∨
    (∃ t, Bounds fields "start" t ∧ Calendar.inYears t.instant = true) ∧
      ∃ t, Bounds fields "end" t ∧ Calendar.inYears t.instant = false

theorem head?_relative {r : Relative} : r.text.toList.head? ≠ some '\x7b' := by
  obtain ⟨previous, digits, span⟩ := r
  cases previous <;> simp [Relative.text]

end Timeframe
end EventQuery
