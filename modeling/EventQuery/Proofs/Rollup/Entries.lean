import EventQuery.Proofs.Failure.Answer
import EventQuery.Proofs.Value.Sum
import EventQuery.Rollup

/-!
# EventQuery.Proofs.Rollup.Entries

The entries that a view reads, in order (`keys`). A view fails as reading them does, and otherwise
only where a week goes back to before the first day of the calendar (`view_eq_error_iff`).
`Breaks` lists what comes of that: an integer that no double holds among the entries, with entries
before it that are read, or a week that begins too early.
-/

namespace EventQuery
namespace Rollup

open Outcome

/-! ## Keys -/

def dayKeys (d : Date) : List String :=
  ["count", "sum", "avg", "min", "max"].map (key · (dayText d))

def summaryKeys (bucket : String) : List String := ["avg", "min", "max"].map (key · bucket)

/-- The days up to a date, the newest first, as far as there are days. -/
def lastDays (d : Date) : Nat → List Date
  | 0 => []
  | n + 1 => if d.days < 0 then [] else d :: lastDays (d.addDays (-1)) n

def keys (t : ViewType) (reference : Date) : List String :=
  match t with
  | .day =>
    (List.range 24).map (hourKey (dayText reference)) ++ summaryKeys (dayText reference)
  | .week => (lastDays reference weekDays).flatMap dayKeys
  | .month =>
    ((monthDays reference).map fun d => key "avg" (dayText d)) ++
      summaryKeys (monthText reference.civil)

variable {rollup : Record} {d reference : Date} {t : ViewType} {k bucket : String}
  {ks : List String} {e : Failure} {cause : Fault}

/-! ## Views -/

theorem entries_eq_mapM : entries rollup ks = ks.mapM (entry rollup) := by
  induction ks with
  | nil => rfl
  | cons k rest ih =>
    rw [List.mapM_cons, ← ih, entries]
    cases entry rollup k with
    | error e => rfl
    | ok x => cases entries rollup rest <;> rfl

theorem viewOf_eq_error_iff : viewOf rollup ks bucket = .error e ↔
    (ks ++ summaryKeys bucket).mapM (entry rollup) = .error e := by
  rw [mapM_append_eq_error_iff, ← entries_eq_mapM]
  simp only [summaryKeys, List.map_cons, List.map_nil, mapM_cons_eq_error_iff]
  exact bind_eq_error_iff_of fun _ => bind_eq_error_iff_of fun _ => bind_eq_error_iff_of fun _ =>
    bind_eq_error_iff_of fun _ => iff_of_false nofun nofun

theorem day_eq_error_iff (h : 0 ≤ d.days) :
    day rollup d = .error e ↔ (dayKeys d).mapM (entry rollup) = .error e := by
  rw [day, if_neg (by omega)]
  simp only [dayKeys, List.map_cons, List.map_nil, mapM_cons_eq_error_iff]
  exact bind_eq_error_iff_of fun _ => bind_eq_error_iff_of fun _ => bind_eq_error_iff_of fun _ =>
    bind_eq_error_iff_of fun _ => bind_eq_error_iff_of fun _ => iff_of_false nofun nofun

theorem day_eq_ok_iff (h : 0 ≤ d.days) :
    (∃ x, day rollup d = .ok x) ↔ ∀ k ∈ dayKeys d, ∃ x, entry rollup k = .ok x := by
  rw [← exists_mapM_eq_ok_iff]
  exact exists_ok_iff_of_error_iff fun e => day_eq_error_iff h

/-- Days read one after the other fail as their entries do, or when there are no more days. -/
theorem daysUpTo_eq_error_iff (n : Nat) (h : -1 ≤ d.days) :
    daysUpTo rollup d n = .error e ↔
      ((lastDays d n).flatMap dayKeys).mapM (entry rollup) = .error e ∨
        e = .fault .beforeFirstDay ∧ d.days + 1 < n ∧
          ∀ k ∈ (lastDays d n).flatMap dayKeys, ∃ x, entry rollup k = .ok x := by
  induction n generalizing d with
  | zero =>
    refine iff_of_false ok_ne_error ?_
    rintro (hnil | ⟨_, hearly, _⟩)
    · cases hnil
    · omega
  | succ n ih =>
    by_cases hd : d.days < 0
    · rw [daysUpTo, day, lastDays, if_pos hd, if_pos hd]
      have hearly : d.days + 1 < (n + 1 : Nat) := by omega
      exact faulty_eq_error_iff.trans
        ⟨fun he => .inr ⟨he, hearly, by simp⟩, fun h => (h.resolve_left ok_ne_error).1⟩
    · have hyesterday : (d.addDays (-1)).days = d.days - 1 := rfl
      rw [daysUpTo, lastDays, if_neg hd, List.flatMap_cons, mapM_append_eq_error_iff,
        exists_mapM_eq_ok_iff, ← day_eq_ok_iff (by omega), ← day_eq_error_iff (by omega),
        List.forall_mem_append, ← day_eq_ok_iff (by omega)]
      cases day rollup d with
      | error e' => simp
      | ok first =>
        have hrest := ih (d := d.addDays (-1)) (by omega)
        have hcount : d.days - 1 + 1 < (n : Int) ↔ d.days + 1 < (n + 1 : Nat) := by omega
        rw [hyesterday, hcount] at hrest
        have hok : ∃ x, (.ok first : Outcome Day) = .ok x := ⟨first, rfl⟩
        simp only [hok, true_and, reduceCtorEq, false_or]
        rw [← hrest]
        cases daysUpTo rollup (d.addDays (-1)) n with
        | error e' => simp
        | ok others => exact iff_of_false ok_ne_error ok_ne_error

theorem view_eq_error_iff (h : 0 ≤ reference.days) :
    view rollup t reference = .error e ↔
      (keys t reference).mapM (entry rollup) = .error e ∨
        e = .fault .beforeFirstDay ∧ t = .week ∧ reference.days + 1 < weekDays ∧
          ∀ k ∈ keys t reference, ∃ x, entry rollup k = .ok x := by
  cases t with
  | day =>
    refine viewOf_eq_error_iff.trans (or_iff_left ?_).symm
    rintro ⟨_, hweek, _⟩
    cases hweek
  | month =>
    refine viewOf_eq_error_iff.trans (or_iff_left ?_).symm
    rintro ⟨_, hweek, _⟩
    cases hweek
  | week =>
    rw [and_iff_right rfl]
    exact map_eq_error_iff.trans (daysUpTo_eq_error_iff weekDays (by omega))

/-! ## Entries -/

/-- What reads as a number. -/
def Readable (v : Value) : Prop :=
  v.isBlank = true ∨ v.IsFloat ∨ ∃ n, v = .int n ∧ ¬v.BeyondDouble

theorem not_isBlank_of_beyondDouble {v : Value} (h : v.BeyondDouble) : ¬v.isBlank = true := by
  obtain ⟨n, rfl, hn⟩ := h
  intro hblank
  rw [beq_iff_eq.mp hblank] at hn
  revert hn
  decide +kernel

theorem beyondDouble_of_ofInt? {v : Value} {n : Int} (hv : v = .int n) :
    v.BeyondDouble ↔ Binary64.ofInt? n = none := by
  rw [hv, Value.beyondDouble_int, Binary64.ofInt?_eq_none_iff]

theorem entry_eq_fault_iff :
    entry rollup k = faulty cause ↔ cause = .beyondDouble ∧ (rollup.value k).BeyondDouble := by
  have hother (h : ¬(rollup.value k).BeyondDouble) {x : Binary64} :
      (.ok x : Outcome Binary64) = faulty cause ↔
        cause = .beyondDouble ∧ (rollup.value k).BeyondDouble :=
    iff_of_false ok_ne_faulty fun hboth => h hboth.2
  fun_cases entry rollup k with
  | case1 v hblank => exact hother fun hbeyond => not_isBlank_of_beyondDouble hbeyond hblank
  | case2 v _ n hn x hx =>
    refine hother ?_
    rw [beyondDouble_of_ofInt? hn, hx]
    exact Option.some_ne_none x
  | case3 v _ n hn hnone =>
    rw [and_iff_left ((beyondDouble_of_ofInt? hn).mpr hnone)]
    exact faulty_eq_faulty_iff
  | case4 v _ x hx =>
    refine hother ?_
    rintro ⟨n, hn, _⟩
    cases hx.symm.trans hn
  | case5 v _ hint _ =>
    refine iff_of_false complain_ne_faulty ?_
    rintro ⟨_, n, hn, _⟩
    exact hint n hn

theorem entry_eq_ok_iff : (∃ x, entry rollup k = .ok x) ↔ Readable (rollup.value k) := by
  fun_cases entry rollup k with
  | case1 v hblank => exact iff_of_true ⟨_, rfl⟩ (.inl hblank)
  | case2 v _ n hn x hx =>
    refine iff_of_true ⟨x, rfl⟩ (.inr (.inr ⟨n, hn, ?_⟩))
    rw [beyondDouble_of_ofInt? hn, hx]
    exact Option.some_ne_none x
  | case3 v hblank n hn hnone =>
    refine iff_of_false (not_exists.mpr fun _ => ok_ne_error.symm) ?_
    rintro (h | ⟨x, hx⟩ | ⟨m, hm, hsmall⟩)
    · exact hblank h
    · cases hn.symm.trans hx
    · exact hsmall ((beyondDouble_of_ofInt? hn).mpr hnone)
  | case4 v _ x hx => exact iff_of_true ⟨x, rfl⟩ (.inr (.inl ⟨x, hx⟩))
  | case5 v hblank hint hfloat =>
    refine iff_of_false (not_exists.mpr fun _ => ok_ne_error.symm) ?_
    rintro (h | ⟨x, hx⟩ | ⟨n, hn, _⟩)
    · exact hblank h
    · exact hfloat x hx
    · exact hint n hn

/-- What becomes of a view that comes to no numbers and is not refused. -/
inductive Breaks (rollup : Record) (t : ViewType) (reference : Date) : Fault → Prop where
  | double {k : String} : Reaches (fun k => Readable (rollup.value k)) (keys t reference) k →
      (rollup.value k).BeyondDouble → Breaks rollup t reference .beyondDouble
  | early : t = .week → reference.days + 1 < weekDays →
      (∀ k ∈ keys t reference, Readable (rollup.value k)) →
      Breaks rollup t reference .beforeFirstDay

theorem view_eq_fault_iff (h : 0 ≤ reference.days) :
    view rollup t reference = faulty cause ↔ Breaks rollup t reference cause := by
  have hentry (k : String) : entry rollup k = .error (.fault cause) ↔ _ := entry_eq_fault_iff
  rw [faulty, view_eq_error_iff h, mapM_eq_error_iff]
  simp only [Steps, entry_eq_ok_iff, hentry]
  constructor
  · rintro (⟨k, hk, rfl, hbeyond⟩ | ⟨he, hweek, hearly, hread⟩)
    · exact .double hk hbeyond
    · cases he
      exact .early hweek hearly hread
  · intro hbreaks
    cases hbreaks with
    | double hk hbeyond => exact .inl ⟨_, hk, rfl, hbeyond⟩
    | early hweek hearly hread => exact .inr ⟨rfl, hweek, hearly, hread⟩

end Rollup
end EventQuery
