import EventQuery.Proofs.Filter.Agreement
import EventQuery.Proofs.Statement.Clause
import EventQuery.Proofs.Timeframe.Relative

/-!
# EventQuery.Proofs.Timeframe.Tiling

How windows lie in time. Every window that a timeframe is resolved to is well formed: its ends are
times in UTC, and it is not empty (`wellFormed_of_resolve`). For an absolute timeframe that is
checked; for a relative one it holds because more spans go back further, over the ends of months as
well (`Span.before_lt`). The previous spans end where these spans begin, and begin where twice as
many begin, so the two windows have no time in common and make up the longer one (`windows_tile`).
-/

namespace EventQuery

open Calendar

/-! ## Months -/

theorem Calendar.daysBeforeYear_mono {y z : Int} (h : y ≤ z) :
    daysBeforeYear y ≤ daysBeforeYear z := by
  rcases h.lt_or_eq with hlt | rfl
  · exact (daysBeforeYear_lt_iff.mpr hlt).le
  · exact le_rfl

/-- A date in an earlier month is an earlier date. -/
theorem Civil.days_lt_of_monthIndex_lt {c e : Civil} (hc : c.isValid = true)
    (he : e.isValid = true) (h : c.monthIndex < e.monthIndex) : c.date.days < e.date.days := by
  obtain ⟨hcmonth, hcday, hclength⟩ := c.isValid_iff.mp hc
  obtain ⟨hemonth, heday, _⟩ := e.isValid_iff.mp he
  rw [monthIndex, monthIndex] at h
  rcases lt_or_ge c.year e.year with hlt | hge
  · calc c.date.days < daysBeforeYear (c.year + 1) := (days_date_bounds hc).2
      _ ≤ daysBeforeYear e.year := daysBeforeYear_mono hlt
      _ ≤ e.date.days := (days_date_bounds he).1
  · -- in one year, the later month begins after the earlier one has ended
    have hyear : c.year = e.year := by omega
    have hnext := daysBeforeMonth_add_one e.year hcmonth.1
    have hmono := daysBeforeMonth_mono e.year (m := c.month) (k := e.month - 1) (by omega)
    rw [Nat.sub_add_cancel hemonth.1] at hmono
    rw [hyear] at hclength
    rw [date, date, hyear]
    dsimp only
    omega

namespace DateTime

/-- A time more months earlier is an earlier time. -/
theorem wall_lt_of_monthsEarlier {t u v : DateTime} {m n : Nat} (hu : t.MonthsEarlier n u)
    (hv : t.MonthsEarlier m v) (h : m < n) : u.wall < v.wall := by
  have hdays : u.date.civil.date.days < v.date.civil.date.days := by
    refine Civil.days_lt_of_monthIndex_lt u.date.isValid_civil v.date.isValid_civil ?_
    rw [hu.date.month, hv.date.month]
    omega
  have htime : u.timeOfDay = v.timeOfDay := hu.time.trans hv.time.symm
  have hpos : 0 < microsPerDay := by decide
  rw [Date.date_civil, Date.date_civil] at hdays
  have hlt : u.date.days * microsPerDay < v.date.days * microsPerDay :=
    Int.mul_lt_mul_of_pos_right hdays hpos
  have hu' : u.wall = u.date.days * microsPerDay + u.timeOfDay := congrArg wall u.eq_withDate
  have hv' : v.wall = v.date.days * microsPerDay + v.timeOfDay := congrArg wall v.eq_withDate
  omega

end DateTime

/-! ## Well-formed windows -/

/-- A window between two times in UTC, in the years of the calendar, the first before the second. -/
structure Window.WellFormed (w : Window) : Prop where
  start_offset : w.start.offset = some 0
  stop_offset : w.stop.offset = some 0
  start_inYears : Calendar.inYears w.start.instant = true
  stop_inYears : Calendar.inYears w.stop.instant = true
  ordered : w.start.instant < w.stop.instant

theorem DateTime.instant_of_offset {t : DateTime} (h : t.offset = some 0) : t.instant = t.wall := by
  simp [instant, h]

namespace Timeframe

variable {span : Span} {t now : DateTime} {w : Window}

theorem Span.offset_before (span : Span) (n : Nat) (t : DateTime) :
    (span.before n t).offset = t.offset := by
  cases span <;> rfl

/-- More spans go back further. -/
theorem Span.before_lt (span : Span) {m n : Nat} (h : m < n) (t : DateTime) :
    (span.before n t).wall < (span.before m t).wall := by
  have hm : span.Earlier m t (span.before m t) := Span.earlier_iff.mpr rfl
  have hn : span.Earlier n t (span.before n t) := Span.earlier_iff.mpr rfl
  have hcast : (m : Int) < n := by exact_mod_cast h
  have hmicros {micros : Int} (hpos : 0 < micros)
      (hm : t.wall - (span.before m t).wall = m * micros)
      (hn : t.wall - (span.before n t).wall = n * micros) :
      (span.before n t).wall < (span.before m t).wall := by
    have hlt : m * micros < n * micros := Int.mul_lt_mul_of_pos_right hcast hpos
    omega
  cases span with
  | months | years => exact DateTime.wall_lt_of_monthsEarlier hn hm (by omega)
  | _ => exact hmicros (by decide) hm.2 hn.2

theorem Span.before_zero (span : Span) (t : DateTime) : span.before 0 t = t := by
  refine (Span.earlier_iff.mp ?_).symm
  have hmonths : t.MonthsEarlier 0 t := by
    refine ⟨rfl, rfl, ⟨by simp, ?_⟩⟩
    exact (min_eq_left (t.date.civil.isValid_iff.mp t.date.isValid_civil).2.2).symm
  cases span with
  | months | years => simpa [Span.Earlier, Span.length] using hmonths
  | _ => exact ⟨rfl, by simp⟩

theorem bound_eq_ok {fields : Record} {field : String} (h : bound fields field = .ok t) :
    t.offset = some 0 ∧ Calendar.inYears t.instant = true := by
  rcases bound_cases fields field with ⟨u, _, hu⟩ | ⟨_, why, hwhy⟩
  · rw [hu, DateTime.inUtc] at h
    split at h
    · rename_i hyears
      cases h
      exact ⟨rfl, by rw [DateTime.instant_utc]; exact hyears⟩
    · cases h
  · rw [hwhy] at h
    cases h

theorem wellFormed_of_resolveAbsolute {fields : Record} (h : resolveAbsolute fields = .ok w) :
    w.WellFormed := by
  unfold resolveAbsolute at h
  split at h
  · cases h
  · rename_i start hstart
    split at h
    · cases h
    · rename_i stop hstop
      split at h
      · rename_i hlt
        cases h
        obtain ⟨hoffset, hyears⟩ := bound_eq_ok hstart
        obtain ⟨hoffset', hyears'⟩ := bound_eq_ok hstop
        exact ⟨hoffset, hoffset', hyears, hyears', hlt⟩
      · cases h

theorem inYears_window_iff (hstart : w.start.offset = some 0) (hstop : w.stop.offset = some 0) :
    inYears w = true ↔
      Calendar.inYears w.start.instant = true ∧ Calendar.inYears w.stop.instant = true := by
  rw [inYears, Bool.and_eq_true, DateTime.instant_of_offset hstart,
    DateTime.instant_of_offset hstop]

theorem wellFormed_window {r : Relative} {amount : Nat} (hnow : now.offset = some 0)
    (hamount : 1 ≤ amount) (hyears : inYears (r.window amount now) = true) :
    (r.window amount now).WellFormed := by
  have hoffset (n : Nat) : (r.span.before n now).offset = some 0 := by
    rw [Span.offset_before, hnow]
  have hinstant (n : Nat) := DateTime.instant_of_offset (hoffset n)
  cases hprevious : r.previous with
  | true =>
    have hwindow : r.window amount now
        = ⟨r.span.before (2 * amount) now, r.span.before amount now⟩ := by
      simp [Relative.window, hprevious]
    rw [hwindow] at hyears ⊢
    obtain ⟨hstart, hstop⟩ := (inYears_window_iff (hoffset _) (hoffset _)).mp hyears
    refine ⟨hoffset _, hoffset _, hstart, hstop, ?_⟩
    rw [hinstant, hinstant]
    exact r.span.before_lt (by omega) now
  | false =>
    have hwindow : r.window amount now = ⟨r.span.before amount now, now⟩ := by
      simp [Relative.window, hprevious]
    rw [hwindow] at hyears ⊢
    obtain ⟨hstart, hstop⟩ := (inYears_window_iff (hoffset _) hnow).mp hyears
    refine ⟨hoffset _, hnow, hstart, hstop, ?_⟩
    have hlt := r.span.before_lt (m := 0) (n := amount) (by omega) now
    rw [Span.before_zero] at hlt
    rw [hinstant, DateTime.instant_of_offset hnow]
    exact hlt

/-- What a relative expression is resolved to is its window, which is not empty. -/
theorem resolveRelative_eq_ok {expression : String} (h : resolveRelative expression now = .ok w) :
    ∃ r, relative? expression = some r ∧ r.digits.length ≤ Numeral.maxDigits ∧
      1 ≤ Text.numberOf r.digits ∧ w = r.window (Text.numberOf r.digits) now ∧
      inYears w = true := by
  unfold resolveRelative at h
  split at h
  · cases h
  · rename_i r hr
    split_ifs at h with hlength
    · cases h
    · dsimp only at h
      split_ifs at h with hamount hyears
      · cases h
      · cases h
        exact ⟨r, hr, Nat.not_lt.mp hlength, Nat.one_le_iff_ne_zero.mpr hamount, rfl, hyears⟩
      · cases h

theorem wellFormed_of_resolveText {raw : String} (hnow : now.offset = some 0)
    (h : resolveText raw now = .ok w) : w.WellFormed := by
  unfold resolveText at h
  dsimp only at h
  split at h
  · split at h
    · exact wellFormed_of_resolveAbsolute h
    · cases h
  · obtain ⟨r, _, _, hamount, rfl, hyears⟩ := resolveRelative_eq_ok h
    exact wellFormed_window hnow hamount hyears

theorem wellFormed_of_resolve {timeframe : Value} (hnow : now.offset = some 0)
    (h : resolve timeframe now = .ok (some w)) : w.WellFormed := by
  unfold resolve at h
  split at h
  · split at h
    · cases h
    · obtain ⟨w', hw, hsome⟩ := Outcome.map_eq_ok h
      cases hsome
      exact wellFormed_of_resolveText hnow hw
  · obtain ⟨w', hw, hsome⟩ := Outcome.map_eq_ok h
    cases hsome
    exact wellFormed_of_resolveAbsolute hw
  · cases h

/-! ## Neighbouring windows -/

/-- Digits, at least one and not too many to be read, that write a number. -/
structure Writes (digits : List Char) (amount : Nat) : Prop where
  nonempty : digits ≠ []
  isDigit : ∀ c ∈ digits, Text.isDigit c = true
  short : digits.length ≤ Numeral.maxDigits
  value : Text.numberOf digits = amount

/-- What an expression of some spans is resolved to. -/
theorem resolve_expression_eq_ok_iff {previous : Bool} {digits : List Char} {amount : Nat}
    (h : Writes digits amount) :
    resolve (.text (⟨previous, digits, span⟩ : Relative).text) now = .ok (some w) ↔
      1 ≤ amount ∧ w = (⟨previous, digits, span⟩ : Relative).window amount now ∧
        inYears w = true := by
  obtain ⟨hne, hdigits, hshort, rfl⟩ := h
  have hread : relative? (⟨previous, digits, span⟩ : Relative).text
      = some ⟨previous, digits, span⟩ := relative?_eq_some_iff.mpr ⟨rfl, hne, hdigits⟩
  rw [resolve_text_relative]
  constructor
  · intro h
    obtain ⟨w', hw, hsome⟩ := Outcome.map_eq_ok h
    cases hsome
    obtain ⟨r, hr, _, hamount, hwindow, hyears⟩ := resolveRelative_eq_ok hw
    cases hread.symm.trans hr
    exact ⟨hamount, hwindow, hyears⟩
  · rintro ⟨hamount, rfl, hyears⟩
    rw [resolveRelative, hread]
    dsimp only
    rw [if_neg (Nat.not_lt.mpr hshort), if_neg (Nat.ne_of_gt hamount), if_pos hyears]
    rfl

end Timeframe

/-! ## Events in windows -/

/-- Whether the condition of a window, bound after some values, selects a row: what its text says
is true of the row. -/
def Window.Selects (w : Window) (bound : List Value) (row : Record) : Prop :=
  ∃ c, Condition.read (Token.ofText ((Predicate.within w).text bound.length)) = some c ∧
    c.truth row (bound ++ (Predicate.within w).values) = some true

theorem Window.formed_within (w : Window) : (Predicate.within w).Formed := by
  refine ⟨?_, nofun⟩
  simp [Predicate.columns, Name.isProperty_timestampColumn]

theorem Window.selects_iff_holds {w : Window} {bound : List Value} {row : Record} :
    w.Selects bound row ↔ w.Holds row := by
  have hformed := w.formed_within
  have hbinds : Predicate.Binds (bound ++ (Predicate.within w).values) bound.length
      (Predicate.within w).values := by
    intro i v hi
    rw [List.getElem?_append_right (Nat.le_add_right _ _), Nat.add_sub_cancel_left, hi]
  have hread : Condition.read (Token.ofText ((Predicate.within w).text bound.length))
      = some ((Predicate.within w).condition bound.length) := by
    rw [(Predicate.open_text bound.length hformed).ofText_eq]
    exact Condition.read_eq (Predicate.reads_tokens bound.length hformed)
  have htruth : ((Predicate.within w).condition bound.length).truth row
        (bound ++ (Predicate.within w).values) = some true ↔ w.Holds row :=
    Predicate.truth_condition hformed hbinds
  rw [Selects, hread]
  constructor
  · rintro ⟨c, hc, h⟩
    cases hc
    exact htruth.mp h
  · intro h
    exact ⟨_, rfl, htruth.mpr h⟩

/-- A window holds the instants from its start up to its end, the end left out. -/
theorem Window.holds_iff {w : Window} {row : Record} {t : DateTime}
    (hstart : w.start.offset = some 0) (hstop : w.stop.offset = some 0)
    (ht : t.offset.isSome = true)
    (hrow : Record.find? row Name.timestampColumn = some (.datetime t)) :
    w.Holds row ↔ w.start.instant ≤ t.instant ∧ t.instant < w.stop.instant := by
  have htruth (op : Operator) {u : DateTime} (hu : u.offset = some 0) :
      row.Satisfies Name.timestampColumn op (.datetime u) ↔ op.Relates t.instant u.instant := by
    have hstands := ColumnKind.stands_datetime ht (s := u) (by rw [hu]; rfl)
    have horder : op.truth (.datetime t) (.datetime u)
        = some (decide (op.Relates t.instant u.instant)) := by
      rw [Operator.truth, hstands.compare?_eq, ← Operator.accepts_cmp]
    simp [Record.Satisfies, hrow, horder]
  rw [Holds, htruth _ hstart, htruth _ hstop]
  rfl

namespace Timeframe

variable {row : Record} {t : DateTime}

/-- Two windows that meet, and the one from the start of the first to the end of the second. -/
theorem holds_meeting {first second : Window} (h : first.WellFormed) (h' : second.WellFormed)
    (hmeet : first.stop = second.start) (ht : t.offset.isSome = true)
    (hrow : Record.find? row Name.timestampColumn = some (.datetime t)) :
    ¬(first.Holds row ∧ second.Holds row) ∧
      ((⟨first.start, second.stop⟩ : Window).Holds row ↔ first.Holds row ∨ second.Holds row) := by
  have hfirst := Window.holds_iff h.start_offset h.stop_offset ht hrow
  have hsecond := Window.holds_iff h'.start_offset h'.stop_offset ht hrow
  have hwhole := Window.holds_iff (w := ⟨first.start, second.stop⟩) h.start_offset h'.stop_offset
    ht hrow
  have hlt := h.ordered
  have hlt' := h'.ordered
  rw [hmeet] at hfirst hlt
  rw [hfirst, hsecond, hwhole]
  dsimp only
  omega

/-- Every window is well formed. The previous spans are resolved to the window that ends where these
spans begin and begins where twice as many begin, and no event is in both of the two, but every
event of the longer one is in one of them. -/
theorem windows_tile (now : Int) :
    (∀ timeframe w, resolve timeframe (.utc now) = .ok (some w) → w.WellFormed) ∧
      ∀ (span : Span) (amount : Nat) (ds ds' es : List Char), Writes ds amount →
        Writes ds' amount → Writes es (2 * amount) → ∀ these earlier,
        resolve (.text (⟨false, ds, span⟩ : Relative).text) (.utc now) = .ok (some these) →
        resolve (.text (⟨true, ds', span⟩ : Relative).text) (.utc now) = .ok (some earlier) →
        earlier.stop = these.start ∧
          ∃ both, resolve (.text (⟨false, es, span⟩ : Relative).text) (.utc now)
              = .ok (some both) ∧
            earlier.start = both.start ∧ these.stop = both.stop ∧
            ∀ bound row t, Record.find? row Name.timestampColumn = some (.datetime t) →
              t.offset.isSome = true →
              ¬(earlier.Selects bound row ∧ these.Selects bound row) ∧
                (both.Selects bound row → Xor (earlier.Selects bound row)
                  (these.Selects bound row)) := by
  refine ⟨fun timeframe w h => wellFormed_of_resolve rfl h, ?_⟩
  intro span amount ds ds' es hds hds' hes these earlier hthese hearlier
  have hformed := wellFormed_of_resolve rfl hthese
  have hformed' := wellFormed_of_resolve rfl hearlier
  obtain ⟨hamount, rfl, hyears⟩ := (resolve_expression_eq_ok_iff hds).mp hthese
  obtain ⟨_, rfl, hyears'⟩ := (resolve_expression_eq_ok_iff hds').mp hearlier
  -- the years of the longer window are those of the start of one and the end of the other
  have hboth : inYears ⟨span.before (2 * amount) (.utc now), .utc now⟩ = true := by
    rw [inYears, Bool.and_eq_true] at hyears hyears' ⊢
    exact ⟨hyears'.1, hyears.2⟩
  have hread : resolve (.text (⟨false, es, span⟩ : Relative).text) (.utc now)
      = .ok (some ⟨span.before (2 * amount) (.utc now), .utc now⟩) := by
    rw [resolve_expression_eq_ok_iff hes]
    exact ⟨by omega, rfl, hboth⟩
  refine ⟨rfl, _, hread, rfl, rfl, ?_⟩
  intro bound row t hrow ht
  obtain ⟨hdisjoint, hcover⟩ := holds_meeting hformed' hformed rfl ht hrow
  simp only [Window.selects_iff_holds]
  refine ⟨hdisjoint, fun h => ?_⟩
  rcases hcover.mp h with h | h
  · exact .inl ⟨h, fun h' => hdisjoint ⟨h, h'⟩⟩
  · exact .inr ⟨h, fun h' => hdisjoint ⟨h', h⟩⟩

/-- An event at noon of a leap day. -/
def leapDay : Record := [(Name.timestampColumn, .datetime (.utc (noon ⟨2024, 2, 29⟩)))]

/-- The last two months before the last of March in a leap year: they meet on the last of February,
and an event at that time is in the later one only. -/
theorem windows_tile_leapDay :
    Writes ['1'] 1 ∧ Writes ['2'] 2 ∧ ∃ these earlier both,
      resolve (.text "this_1_months") (.utc (noon ⟨2024, 3, 31⟩)) = .ok (some these) ∧
        resolve (.text "previous_1_months") (.utc (noon ⟨2024, 3, 31⟩)) = .ok (some earlier) ∧
        resolve (.text "this_2_months") (.utc (noon ⟨2024, 3, 31⟩)) = .ok (some both) ∧
        these.WellFormed ∧ earlier.stop = these.start ∧ earlier.start = both.start ∧
        these.Selects [] leapDay ∧ ¬earlier.Selects [] leapDay := by
  have hwrites {c : Char} {n : Nat} (hc : Text.isDigit c = true) (hn : Text.numberOf [c] = n) :
      Writes [c] n := ⟨nofun, by simpa using hc, by simp [Numeral.maxDigits], hn⟩
  have hone : Writes ['1'] 1 := hwrites (by decide) (by decide)
  have htwo : Writes ['2'] (2 * 1) := hwrites (by decide) (by decide)
  have htext : (⟨false, ['1'], .months⟩ : Relative).text = "this_1_months" ∧
      (⟨true, ['1'], .months⟩ : Relative).text = "previous_1_months" ∧
      (⟨false, ['2'], .months⟩ : Relative).text = "this_2_months" := by decide
  have hresolve {previous : Bool}
      (hyears : inYears ((⟨previous, ['1'], .months⟩ : Relative).window 1
        (.utc (noon ⟨2024, 3, 31⟩))) = true) :
      resolve (.text (⟨previous, ['1'], .months⟩ : Relative).text) (.utc (noon ⟨2024, 3, 31⟩))
        = .ok (some ((⟨previous, ['1'], .months⟩ : Relative).window 1
          (.utc (noon ⟨2024, 3, 31⟩)))) :=
    (resolve_expression_eq_ok_iff hone).mpr ⟨le_rfl, rfl, hyears⟩
  have hthese := @hresolve false (by decide)
  have hearlier := @hresolve true (by decide)
  obtain ⟨hformed, htile⟩ := windows_tile (noon ⟨2024, 3, 31⟩)
  obtain ⟨hmeet, both, hboth, hstart, _, hevents⟩ :=
    htile .months 1 ['1'] ['1'] ['2'] hone hone htwo _ _ hthese hearlier
  have hwell := hformed _ _ hthese
  have hselects : Window.Selects _ [] leapDay := Window.selects_iff_holds.mpr
    ((Window.holds_iff hwell.start_offset hwell.stop_offset rfl rfl).mpr (by decide))
  rw [htext.1] at hthese
  rw [htext.2.1] at hearlier
  rw [htext.2.2] at hboth
  exact ⟨hone, htwo, _, _, both, hthese, hearlier, hboth, hwell, hmeet, hstart, hselects,
    fun h => (hevents [] leapDay _ rfl rfl).1 ⟨h, hselects⟩⟩

end Timeframe
end EventQuery
