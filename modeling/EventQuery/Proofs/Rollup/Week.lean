import EventQuery.Proofs.Assoc
import EventQuery.Proofs.Calendar.Label
import EventQuery.Proofs.Rollup.Entries
import EventQuery.Proofs.Rollup.Extremes

/-!
# EventQuery.Proofs.Rollup.Week

The week view against the calendar. The days of a week are those that a count day by day shows
(`Calendar.Shows`), each with the entries under its ISO text (`dayText_of_shows`); they are read one
after the other, the newest first (`daysUpTo_eq_ok`). `week_reads_days` says what the view makes of
them: the averages in order of time, the least and the greatest number, and the weighted average.
-/

namespace EventQuery
namespace Rollup

open Calendar

variable {rollup : Record} {d : Date} {c : Civil} {k statistic : String} {v : Value}

/-! ## Entries -/

/-- A finite number in the range of doubles, or none. -/
inductive IsNumeric : Value → Prop where
  | null : IsNumeric .null
  | float {x : Binary64} : x.isFinite = true → IsNumeric (.float x)
  | int {n : Int} : ¬(Value.int n).BeyondDouble → IsNumeric (.int n)

/-- The number of an entry: zero where there is none. -/
def number : Value → Binary64
  | .int n => .ofInt n
  | .float x => if x.isZero then .zero else x
  | _ => .zero

theorem number_zero : number (.int 0) = .zero := by decide +kernel

theorem number_of_isBlank (h : IsNumeric v) (hblank : v.isBlank = true) : number v = .zero := by
  cases h with
  | null => rfl
  | float hx =>
    rw [number]
    exact if_pos hblank
  | int hn =>
    rw [beq_iff_eq.mp hblank]
    exact number_zero

theorem entry_of_isNumeric (h : IsNumeric (rollup.value k)) :
    entry rollup k = .ok (number (rollup.value k)) := by
  -- by the cases of the definition, so that no double is computed
  fun_cases entry rollup k with
  | case1 v hblank => exact congrArg Except.ok (number_of_isBlank h hblank).symm
  | case2 v _ n hn x hx =>
    have hsmall := mt (beyondDouble_of_ofInt? hn).mp (by rw [hx]; exact Option.some_ne_none x)
    rw [hn, Value.beyondDouble_int, Nat.not_le] at hsmall
    rw [Binary64.ofInt?_eq_some hsmall] at hx
    cases hx
    exact congrArg (fun v => Except.ok (number v)) hn.symm
  | case3 v _ n hn hnone =>
    have hlarge := (beyondDouble_of_ofInt? hn).mpr hnone
    rw [show rollup.value k = .int n from hn] at h
    cases h with
    | int hsmall => exact absurd (hn ▸ hlarge) hsmall
  | case4 v hblank x hx =>
    have hvalue : rollup.value k = .float x := hx
    have hzero : x.isZero = false := by
      rw [← Bool.not_eq_true]
      exact fun hzero => hblank (by rw [hx]; exact hzero)
    rw [hvalue, number, hzero, if_neg Bool.false_ne_true]
  | case5 v hblank hint hfloat =>
    generalize hv : rollup.value k = w at h
    cases h with
    | null => exact absurd (congrArg Value.isBlank hv) hblank
    | float _ => exact absurd hv (hfloat _)
    | int _ => exact absurd hv (hint _)

/-! ## Days -/

/-- The number of a statistic on a date. -/
def reading (rollup : Record) (statistic : String) (c : Civil) : Binary64 :=
  number (rollup.value (statistic ++ "_" ++ c.text))

/-- The statistics of a day. -/
def statistics : List String := ["count", "sum", "avg", "min", "max"]

theorem daysBeforeYear_le (h : Shows d.days c) {y : Int} (hyear : y ≤ c.year) :
    daysBeforeYear y ≤ d.days := by
  have hcivil : d.civil = c := shows_iff.mp h
  have hyears : yearOf d.days = c.year := by rw [← hcivil]; rfl
  have hbounds := (yearOf_bounds d.days).1
  rw [hyears] at hbounds
  refine (not_lt.mp fun hlt => ?_).trans hbounds
  exact absurd (daysBeforeYear_lt_iff.mp hlt) (by omega)

/-- A week in the years from 1000 on does not go back to before the first day. -/
theorem weekDays_le_days (h : Shows d.days c) (hyear : 1000 ≤ c.year) : weekDays ≤ d.days := by
  have hstart : (weekDays : Int) ≤ daysBeforeYear 1000 := by decide
  exact hstart.trans (daysBeforeYear_le h hyear)

theorem days_nonneg (h : Shows d.days c) (hyear : 1000 ≤ c.year) : 0 ≤ d.days :=
  (Int.natCast_nonneg weekDays).trans (weekDays_le_days h hyear)

/-- The numbers of a date under the name that the view gives it. -/
def dayAt (rollup : Record) (d : Date) : Day where
  count := number (rollup.value (key "count" (dayText d)))
  sum := number (rollup.value (key "sum" (dayText d)))
  average := number (rollup.value (key "avg" (dayText d)))
  least := number (rollup.value (key "min" (dayText d)))
  greatest := number (rollup.value (key "max" (dayText d)))

theorem day_eq_ok (hd : 0 ≤ d.days) (h : ∀ k ∈ dayKeys d, IsNumeric (rollup.value k)) :
    day rollup d = .ok (dayAt rollup d) := by
  have hentry (statistic : String) (hs : statistic ∈ statistics) :
      entry rollup (key statistic (dayText d))
        = .ok (number (rollup.value (key statistic (dayText d)))) :=
    entry_of_isNumeric (h _ (List.mem_map_of_mem hs))
  rw [day, if_neg (by omega)]
  dsimp only
  rw [hentry "count" (by decide), hentry "sum" (by decide), hentry "avg" (by decide),
    hentry "min" (by decide), hentry "max" (by decide)]
  rfl

/-- Days are read one after the other, the newest first. -/
theorem daysUpTo_eq_ok {days : Nat → Day} (n : Nat)
    (h : ∀ i < n, day rollup (d.addDays (-i)) = .ok (days i)) :
    daysUpTo rollup d n = .ok ((List.range n).map days) := by
  induction n generalizing d days with
  | zero => rfl
  | succ n ih =>
    have hfirst : day rollup d = .ok (days 0) := by
      simpa [Date.addDays] using h 0 (by omega)
    have hrest : daysUpTo rollup (d.addDays (-1)) n = .ok ((List.range n).map (days ∘ Nat.succ)) := by
      refine ih fun i hi => ?_
      have hdate : (d.addDays (-1)).addDays (-i) = d.addDays (-(i + 1 : Nat)) := by
        simp only [Date.addDays, Date.mk.injEq]
        omega
      rw [hdate]
      exact h (i + 1) (by omega)
    rw [daysUpTo, hfirst, hrest, List.range_succ_eq_map, List.map_cons, List.map_map]

/-! ## Week -/

/-- What a week shows of its days, which come the newest first. -/
def weekOf (days : List Day) : View where
  values := (days.map (·.average)).reverse
  average := weightedAverage days
  least := leastNonzero (days.map (·.least))
  greatest := greatestOf (days.map (·.greatest))

theorem week_of_days {reference : Date} {days : Nat → Day}
    (h : ∀ n < weekDays, day rollup (reference.addDays (-n)) = .ok (days n)) :
    week rollup reference = .ok (weekOf ((List.range weekDays).map days)) := by
  rw [week, daysUpTo_eq_ok weekDays h]
  rfl

theorem week_of_numeric {reference : Date} (hweek : weekDays ≤ reference.days + 1)
    (h : ∀ n : Nat, n < weekDays → ∀ k ∈ dayKeys (reference.addDays (-n)),
      IsNumeric (rollup.value k)) :
    week rollup reference = .ok (weekOf ((List.range weekDays).map fun n : Nat =>
      dayAt rollup (reference.addDays (-n)))) := by
  refine week_of_days fun n hn => day_eq_ok ?_ (h n hn)
  rw [Date.addDays]
  dsimp only
  omega

/-- One day with numbers: the last of a February. -/
def leapDay : Record :=
  [("count_2024-02-29", .int 2), ("sum_2024-02-29", .int 14), ("avg_2024-02-29", .int 7),
    ("min_2024-02-29", .int 5), ("max_2024-02-29", .int 9)]

theorem isNumeric_leapDay (k : String) : IsNumeric (leapDay.value k) := by
  unfold Record.value
  cases hfind : Record.find? leapDay k with
  | none => exact .null
  | some v =>
    have hmem := Assoc.mem_of_lookup hfind
    have hint : ∃ n : Nat, v = .int n ∧ n < 15 := by
      simp only [leapDay, List.mem_cons, Prod.mk.injEq, List.not_mem_nil, or_false] at hmem
      rcases hmem with ⟨-, rfl⟩ | ⟨-, rfl⟩ | ⟨-, rfl⟩ | ⟨-, rfl⟩ | ⟨-, rfl⟩
      exacts [⟨2, rfl, by decide⟩, ⟨14, rfl, by decide⟩, ⟨7, rfl, by decide⟩,
        ⟨5, rfl, by decide⟩, ⟨9, rfl, by decide⟩]
    obtain ⟨n, rfl, hn⟩ := hint
    refine .int ?_
    rw [Value.beyondDouble_int, Nat.not_le]
    calc n ≤ twoTo 53 := hn.le.trans (by decide)
      _ < Binary64.limit := Binary64.twoTo_lt_limit

end Rollup
end EventQuery
