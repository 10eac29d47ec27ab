import EventQuery.Proofs.Calendar.Month
import EventQuery.Proofs.Text.Numeral
import EventQuery.Proofs.Timeframe.Faults

/-!
# EventQuery.Proofs.Timeframe.Relative

What relative timeframes stand for, said by the calendar. A span is a time that is always the same
or a number of months (`Span.length`), and a time some spans before a time is unique
(`Span.earlier_iff`), so a relative expression stands for one window (`Relative.means_iff`). An
expression is resolved to that window if it lies in the years 1 to 9999, and else is refused
(`resolve_relative`).
-/

namespace EventQuery

namespace Timeframe

/-! ## Spans -/

/-- How long a span is: a time that is always the same, or months of the calendar. -/
inductive Length where
  | micros (n : Int)
  | months (n : Nat)

namespace Span

def length : Span → Length
  | seconds => .micros 1000000
  | minutes => .micros (60 * 1000000)
  | hours => .micros (60 * 60 * 1000000)
  | days => .micros (24 * 60 * 60 * 1000000)
  | weeks => .micros (7 * 24 * 60 * 60 * 1000000)
  | Span.months => .months 1
  | years => .months 12

/-- A time some spans before a time. -/
def Earlier (span : Span) (amount : Nat) (t earlier : DateTime) : Prop :=
  match span.length with
  | .micros n => earlier.offset = t.offset ∧ t.wall - earlier.wall = amount * n
  | .months n => t.MonthsEarlier (amount * n) earlier

variable {span : Span} {amount : Nat} {t u : DateTime}

theorem micros_earlier_iff {micros : Int} :
    u.offset = t.offset ∧ t.wall - u.wall = amount * micros ↔
      u = { t with wall := t.wall - amount * micros } := by
  obtain ⟨wall, offset⟩ := u
  rw [DateTime.mk.injEq, and_comm]
  refine and_congr_left fun _ => ?_
  dsimp only
  omega

theorem earlier_iff : span.Earlier amount t u ↔ u = span.before amount t := by
  cases span with
  | months =>
    rw [before, ← DateTime.monthsEarlier_iff]
    simp only [Earlier, length, Nat.mul_one]
  | years =>
    rw [before, ← DateTime.monthsEarlier_iff]
    simp only [Earlier, length, Nat.mul_comm 12]
  | _ => exact micros_earlier_iff

end Span

/-! ## Expressions -/

namespace Relative

variable {r : Relative} {amount : Nat} {now : DateTime} {w : Window}

/-- The window that a relative expression stands for. -/
def Means (r : Relative) (amount : Nat) (now : DateTime) (w : Window) : Prop :=
  if r.previous then r.span.Earlier (2 * amount) now w.start ∧ r.span.Earlier amount now w.stop
  else r.span.Earlier amount now w.start ∧ w.stop = now

theorem means_iff : r.Means amount now w ↔ w = r.window amount now := by
  obtain ⟨start, stop⟩ := w
  rw [Means, window]
  split <;> simp [Span.earlier_iff]

/-- An expression has no spacing around it. -/
theorem trimmed_text (r : Relative) : Text.trimmed r.text = r.text := by
  obtain ⟨previous, digits, span⟩ := r
  have hstrip : Text.strip Text.isSpacing (⟨previous, digits, span⟩ : Relative).text.toList
      = (⟨previous, digits, span⟩ : Relative).text.toList := by
    refine Text.strip_eq_self ?_ ?_
    · have hwords : Text.isSpacing 't' = false ∧ Text.isSpacing 'p' = false := by decide
      cases previous <;> simp [text, hwords]
    · have hend : Text.isSpacing 's' = false := by decide
      cases span <;> simp [text, Span.name, hend]
  rw [Text.trimmed, hstrip, String.ofList_toList]

end Relative

theorem resolve_text_relative (r : Relative) (now : DateTime) :
    resolve (.text r.text) now = (resolveRelative r.text now).map some := by
  have hfull : r.text ≠ "" := by
    obtain ⟨previous, digits, span⟩ := r
    cases previous <;> simp [Relative.text]
  rw [resolve, if_neg (mt String.isEmpty_iff.mp hfull), resolveText, r.trimmed_text]
  split
  · -- no expression begins with a brace
    rename_i rest hrest
    exact absurd (by rw [hrest]; rfl) (head?_relative (r := r))
  · rfl

/-- An expression whose amount is at least one, in at most as many digits as are read, is resolved
to the one window that it stands for by the calendar, if both ends of it are in the years 1 to 9999;
otherwise it is refused. -/
theorem resolve_relative (now : Int) {r : Relative}
    (hdigits : ∀ c ∈ r.digits, Text.isDigit c = true)
    (hlength : r.digits.length ≤ Numeral.maxDigits) (hamount : 1 ≤ Text.numberOf r.digits) :
    ∃ w, (∀ w', r.Means (Text.numberOf r.digits) (.utc now) w' ↔ w' = w) ∧
      resolve (.text r.text) (.utc now) =
        if w.start.InYears ∧ w.stop.InYears then .ok (some w)
        else .error (.badQuery (.timeframeRange r.text)) := by
  refine ⟨r.window (Text.numberOf r.digits) (.utc now), fun w' => Relative.means_iff, ?_⟩
  have hne : r.digits ≠ [] := by
    intro hnil
    rw [hnil] at hamount
    exact absurd hamount (by decide)
  have hread : relative? r.text = some r := relative?_eq_some_iff.mpr ⟨rfl, hne, hdigits⟩
  rw [resolve_text_relative, resolveRelative, hread]
  dsimp only
  rw [if_neg (Nat.not_lt.mpr hlength), if_neg (Nat.ne_of_gt hamount)]
  simp only [inYears, Bool.and_eq_true, DateTime.inYears_iff]
  split <;> rfl

/-- Noon of a day. -/
def noon (c : Civil) : Int := c.date.days * Calendar.microsPerDay + 12 * Calendar.microsPerHour

/-- The month before the last of March in a leap year: the day of its end is not there in February,
and that of its start, two months back, is there in January. -/
theorem resolve_relative_leapYear :
    (∀ c ∈ ['1'], Text.isDigit c = true) ∧ ['1'].length ≤ Numeral.maxDigits ∧
      1 ≤ Text.numberOf ['1'] ∧
      resolve (.text "previous_1_months") (.utc (noon ⟨2024, 3, 31⟩))
        = .ok (some ⟨.utc (noon ⟨2024, 1, 31⟩), .utc (noon ⟨2024, 2, 29⟩)⟩) := by
  have hdigits : ∀ c ∈ ['1'], Text.isDigit c = true := by
    rw [List.forall_mem_singleton]
    decide
  have hlength : ['1'].length ≤ Numeral.maxDigits := by decide
  have hamount : 1 ≤ Text.numberOf ['1'] := by decide
  refine ⟨hdigits, hlength, hamount, ?_⟩
  obtain ⟨w, hmeans, hresolve⟩ := resolve_relative (noon ⟨2024, 3, 31⟩)
    (r := ⟨true, ['1'], .months⟩) hdigits hlength hamount
  have hw : (⟨.utc (noon ⟨2024, 1, 31⟩), .utc (noon ⟨2024, 2, 29⟩)⟩ : Window) = w :=
    (hmeans _).mp
      ⟨⟨rfl, by decide, ⟨by decide, by decide⟩⟩, ⟨rfl, by decide, ⟨by decide, by decide⟩⟩⟩
  have htext : (⟨true, ['1'], .months⟩ : Relative).text = "previous_1_months" := by decide
  rw [← hw, htext, if_pos (by decide)] at hresolve
  exact hresolve

end Timeframe
end EventQuery
