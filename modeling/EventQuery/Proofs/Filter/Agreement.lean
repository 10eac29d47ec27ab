import EventQuery.Filter.Coercion
import EventQuery.Filter.Match
import EventQuery.Proofs.Filter.NaturalOrder
import EventQuery.Proofs.Outcome

/-!
# EventQuery.Proofs.Filter.Agreement

Filters applied to rows that are already there mean what they mean in a statement. A filter value
was brought into the kind of its column (`has_of_coerceValue`); what happens to the two sides
before they are compared leaves their keys as they are (`compares_of_key`). So a filter is satisfied
exactly where its comparison holds in the natural order of the kind, and the rows that are kept are
those on which all comparisons hold (`selects_in_natural_order`).
-/

namespace EventQuery

open ColumnKind

/-! ## Two sides brought together -/

@[simp] theorem DateTime.instant_utc (i : Int) : (DateTime.utc i).instant = i := by
  simp [utc, instant]

theorem Binary64.eq_nan_of_isNaN {x : Binary64} (h : x.isNaN = true) : x = .nan := by
  cases x with
  | nan => rfl
  | signed negative place => cases h

/-- A time of the calendar, shown on a UTC clock. -/
theorem Value.utc?_of_key {v : Value} {a : timestamp.Key} (h : timestamp.key? v = some a) :
    v.utc? = .ok (some (.utc a)) := by
  have hmoment {t : DateTime} (ht : v.moment? = some t) (hkey : instant? t = some a) :
      v.utc? = .ok (some (.utc a)) := by
    obtain ⟨hyears, rfl⟩ := instant?_eq_some hkey
    simp [utc?, ht, DateTime.inUtc, hyears, Except.map]
  rcases Has.timestamp_cases ⟨a, h⟩ with ⟨d, rfl⟩ | ⟨t, rfl⟩
  · exact hmoment rfl h
  · exact hmoment rfl h

namespace Filter

variable {k : ColumnKind} {u v : Value}

theorem isTime_of_has (h : timestamp.Has v) : isTime v = true := by
  rcases h.timestamp_cases with ⟨d, rfl⟩ | ⟨t, rfl⟩
  · rfl
  · rfl

/-- Values of a kind other than times stay as they are. -/
theorem align_eq_self (hk : k ≠ .timestamp) (hu : k.Has u) (hv : k.Has v) :
    align u v = .ok (u, v) := by
  cases k with
  | timestamp => exact absurd rfl hk
  | number =>
    rcases hu.number_cases with ⟨m, rfl⟩ | ⟨x, rfl⟩
    · rcases hv.number_cases with ⟨n, rfl⟩ | ⟨y, rfl⟩ <;> rfl
    · rcases hv.number_cases with ⟨n, rfl⟩ | ⟨y, rfl⟩ <;> rfl
  | text =>
    obtain ⟨s, rfl⟩ := hu.text_cases
    obtain ⟨t, rfl⟩ := hv.text_cases
    rfl
  | boolean =>
    obtain ⟨b, rfl⟩ := hu.boolean_cases
    obtain ⟨c, rfl⟩ := hv.boolean_cases
    rfl
  | other =>
    obtain ⟨a, ha⟩ := hu
    cases ha

theorem compares_of_key {a b : k.Key} (hu : k.key? u = some a) (hv : k.key? v = some b)
    (op : Operator) : compares op u v = .ok (k.compares op u v) := by
  have hkeys : k.compares op u v = op.accepts (cmp a b) := by
    rw [ColumnKind.compares, hu, hv, Operator.accepts_cmp]
  have hstands {l r : Value} (halign : align u v = .ok (l, r)) (h : l.Stands r (cmp a b)) :
      compares op u v = .ok (k.compares op u v) := by
    rw [compares, halign, hkeys]
    dsimp only
    rw [h.holds_eq]
  by_cases hk : k = .timestamp
  · subst hk
    have halign : align u v = .ok (.datetime (.utc a), .datetime (.utc b)) := by
      simp [align, isTime_of_has ⟨a, hu⟩, alignTimes, Value.utc?_of_key hu, Value.utc?_of_key hv]
    refine hstands halign ?_
    have horder := stands_datetime (t := .utc a) (s := .utc b) rfl rfl
    rw [DateTime.instant_utc a, DateTime.instant_utc b] at horder
    exact horder
  · exact hstands (align_eq_self hk ⟨a, hu⟩ ⟨b, hv⟩) (stands_of_key hk hu hv)

/-! ## Values of filters -/

theorem complain_ne_ok {α : Type} {c : Complaint} {a : α} : complain c ≠ .ok a := by
  intro h
  cases h

theorem faulty_ne_ok {α : Type} {f : Fault} {a : α} : faulty f ≠ .ok a := by
  intro h
  cases h

theorem refuse_ne_ok {column wanted : String} {raw : Value} : refuse column wanted raw ≠ .ok v := by
  unfold refuse
  split
  · exact complain_ne_ok
  · exact faulty_ne_ok

theorem toTimestamp_eq_ok {column : String} {raw : Value} (h : toTimestamp column raw = .ok v) :
    ∃ i, v = .datetime (.utc i) ∧ Calendar.inYears i = true := by
  unfold toTimestamp at h
  split at h
  · cases h
  · rename_i t ht
    cases h
    unfold Value.utc? at ht
    split at ht
    · cases ht
    · obtain ⟨t, ht, hsome⟩ := Outcome.map_eq_ok ht
      cases hsome
      unfold DateTime.inUtc at ht
      split at ht
      · rename_i hyears
        cases ht
        exact ⟨_, rfl, hyears⟩
      · cases ht
  · exact absurd h refuse_ne_ok

theorem toNumber_eq_ok {column : String} {raw : Value} :
    toNumber column raw = .ok v → ∃ x, v = .float x := by
  -- by the cases of the definition, so that no double is computed
  fun_cases toNumber column raw with
  | case1 n x | case3 x | case4 s x =>
    intro h
    injection h with h
    exact ⟨x, h.symm⟩
  | case2 => exact fun h => absurd h faulty_ne_ok
  | case5 | case6 => exact fun h => absurd h refuse_ne_ok

theorem toText_eq_ok {column : String} {raw : Value} :
    toText column raw = .ok v → ∃ s, v = .text s := by
  fun_cases toText column raw with
  | case1 | case2 | case5 =>
    intro h
    injection h with h
    exact ⟨_, h.symm⟩
  | case3 n hshown =>
    intro h
    rw [if_pos hshown] at h
    injection h with h
    exact ⟨_, h.symm⟩
  | case4 n hlong =>
    intro h
    rw [if_neg hlong] at h
    exact absurd h faulty_ne_ok
  | case6 => exact fun h => absurd h refuse_ne_ok

theorem toBoolean_eq_ok {column : String} {raw : Value} (h : toBoolean column raw = .ok v) :
    ∃ b, v = .bool b := by
  revert h
  fun_cases toBoolean column raw with
  | case1 | case2 | case3 | case5 | case6 | case8 | case9 =>
    intro h
    injection h with h
    exact ⟨_, h.symm⟩
  | case4 | case7 | case10 | case11 => exact fun h => absurd h refuse_ne_ok

theorem has_float {x : Binary64} (h : x.isNaN = false) : number.Has (.float x) := by
  show ∃ a, x.quantity.extended? = some a
  cases hq : x.quantity with
  | undefined =>
    rw [Binary64.quantity, h, if_neg (by simp)] at hq
    split at hq <;> cases hq
  | infinite n => cases n <;> exact ⟨_, rfl⟩
  | finite q => exact ⟨_, rfl⟩

/-- A value that was brought into a kind is one of the kind, unless it is null or NaN. -/
theorem has_of_coerceValue {column : String} {raw : Value} (hk : k ≠ .other)
    (h : coerceValue column raw k = .ok v) (hnull : v ≠ .null) (hnan : v ≠ .float .nan) :
    k.Has v := by
  revert h
  fun_cases coerceValue column raw k with
  | case1 =>
    rename_i hraw
    intro h
    cases h
    cases v with
    | null => exact absurd rfl hnull
    | _ => cases hraw
  | case2 => exact absurd rfl hk
  | case3 =>
    intro h
    obtain ⟨i, rfl, hyears⟩ := toTimestamp_eq_ok h
    have hkey : instant? (.utc i) = some i := by
      rw [instant?, DateTime.instant_utc, if_pos hyears]
    exact ⟨i, hkey⟩
  | case4 =>
    intro h
    obtain ⟨x, rfl⟩ := toNumber_eq_ok h
    refine has_float ?_
    rw [Bool.eq_false_iff]
    intro hx
    exact hnan (congrArg Value.float (Binary64.eq_nan_of_isNaN hx))
  | case5 =>
    intro h
    obtain ⟨s, rfl⟩ := toText_eq_ok h
    exact ⟨s.toList, rfl⟩
  | case6 =>
    intro h
    obtain ⟨b, rfl⟩ := toBoolean_eq_ok h
    exact ⟨b, rfl⟩

/-! ## Rows -/

/-- Whether a row meets a filter in the natural order of the kind of its column. A row without the
column does. -/
def meets (kinds : List (String × ColumnKind)) (f : Filter) (row : Record) : Bool :=
  match Record.find? row f.property, kindFor kinds f.property with
  | none, _ => true
  | some _, none => false
  | some u, some k => k.compares f.operator u f.value

/-- Whether a filter has a value that compares: it is neither null nor NaN. -/
def Compares (f : Filter) : Prop := f.value ≠ .null ∧ f.value ≠ .float .nan

/-- Whether the columns of filters hold values of their kinds in a row, as far as they are there. -/
def Fits (kinds : List (String × ColumnKind)) (filters : List Filter) (row : Record) : Prop :=
  ∀ f ∈ filters, ∀ u, Record.find? row f.property = some u →
    ∃ k, kindFor kinds f.property = some k ∧ k.Has u

theorem coerceAll_eq_ok {kinds : List (String × ColumnKind)} {raw filters : List Filter}
    (h : coerceAll kinds raw = .ok filters) :
    List.Forall₂ (fun f g => coerce kinds f = .ok g) raw filters := by
  induction raw generalizing filters with
  | nil =>
    cases h
    exact .nil
  | cons f rest ih =>
    unfold coerceAll at h
    split at h
    · cases h
    · rename_i g hg
      split at h
      · cases h
      · rename_i gs hgs
        cases h
        exact .cons hg (ih hgs)

/-- A filter keeps its column, and its value was brought into the column's kind. -/
theorem coerceValue_of_coerceAll {kinds : List (String × ColumnKind)} {raw filters : List Filter}
    (h : coerceAll kinds raw = .ok filters) {f : Filter} (hf : f ∈ filters)
    (hkind : kindFor kinds f.property = some k) :
    ∃ given, coerceValue f.property given k = .ok f.value := by
  -- the filters are coerced one by one, so the one in question comes from its own partner
  have hall := coerceAll_eq_ok h
  clear h
  induction hall with
  | nil => cases hf
  | @cons g f' _ _ hfirst _ ih =>
    rcases List.mem_cons.mp hf with rfl | hf
    · unfold coerce at hfirst
      split at hfirst
      · rename_i hnone
        cases hfirst
        cases hnone.symm.trans hkind
      · rename_i kind hsome
        obtain ⟨v, hv, rfl⟩ := Outcome.map_eq_ok hfirst
        cases hsome.symm.trans hkind
        exact ⟨g.value, hv⟩
    · exact ih hf

theorem map_property_coerceAll {kinds : List (String × ColumnKind)} {raw filters : List Filter}
    (h : coerceAll kinds raw = .ok filters) :
    filters.map (·.property) = raw.map (·.property) := by
  have hall := coerceAll_eq_ok h
  clear h
  induction hall with
  | nil => rfl
  | cons hfirst _ ih =>
    rw [List.map_cons, List.map_cons, ih]
    unfold coerce at hfirst
    split at hfirst
    · cases hfirst
      rfl
    · obtain ⟨_, _, rfl⟩ := Outcome.map_eq_ok hfirst
      rfl

/-- What holds of the properties of filters holds of those of the coerced filters. -/
theorem forall_property_of_coerceAll {kinds : List (String × ColumnKind)}
    {raw filters : List Filter} (holds : String → Prop) (h : coerceAll kinds raw = .ok filters)
    (hraw : ∀ f ∈ raw, holds f.property) : ∀ f ∈ filters, holds f.property := by
  have hnames : ∀ x ∈ raw.map (·.property), holds x := List.forall_mem_map.mpr hraw
  rw [← map_property_coerceAll h] at hnames
  exact List.forall_mem_map.mp hnames

theorem select_eq_filter {f : Filter} {rows : List Record} {test : Record → Bool}
    (h : ∀ row ∈ rows, f.accepts row = .ok (test row)) :
    select f rows = .ok (rows.filter test) := by
  induction rows with
  | nil => rfl
  | cons row rows ih =>
    rw [List.forall_mem_cons] at h
    rw [select, h.1, ih h.2, List.filter_cons]

theorem selectAll_eq_filter {filters : List Filter} {rows : List Record}
    {test : Filter → Record → Bool}
    (h : ∀ f ∈ filters, ∀ row ∈ rows, f.accepts row = .ok (test f row)) :
    selectAll filters rows = .ok (rows.filter fun row => filters.all (test · row)) := by
  induction filters generalizing rows with
  | nil => simp [selectAll]
  | cons f filters ih =>
    rw [List.forall_mem_cons] at h
    have hrest : ∀ g ∈ filters, ∀ row ∈ rows.filter (test f), g.accepts row = .ok (test g row) :=
      fun g hg row hrow => h.2 g hg row (List.mem_filter.mp hrow).1
    rw [selectAll, select_eq_filter h.1]
    dsimp only
    rw [ih hrest, List.filter_filter]
    simp [Bool.and_comm]

/-- Filters applied to rows keep those that meet them in natural order: one filter value of any
kind against one value of a row, and filters against rows. -/
theorem selects_in_natural_order (kinds : List (String × ColumnKind)) (raw filters : List Filter)
    (rows : List Record) :
    (∀ (k : ColumnKind) (column property : String) (op : Operator) (given v u : Value)
        (row : Record),
      coerceValue column given k = .ok v → v ≠ .null → v ≠ .float .nan → k.Has u →
      Record.find? row property = some u →
      k.Has v ∧ accepts ⟨property, op, v⟩ row = .ok (k.compares op u v)) ∧
    (coerceAll kinds raw = .ok filters → (∀ f ∈ filters, f.Compares) →
      (∀ row ∈ rows, Fits kinds filters row) →
      selectAll filters rows
        = .ok (rows.filter fun row => filters.all fun f => f.meets kinds row)) := by
  constructor
  · intro k column property op given v u row hcoerce hnull hnan hu hrow
    have hk : k ≠ .other := by
      rintro rfl
      obtain ⟨a, ha⟩ := hu
      cases ha
    have hv := has_of_coerceValue hk hcoerce hnull hnan
    refine ⟨hv, ?_⟩
    obtain ⟨a, ha⟩ := hu
    obtain ⟨b, hb⟩ := hv
    rw [accepts, hrow]
    exact compares_of_key ha hb op
  · intro hcoerce hfilters hrows
    refine selectAll_eq_filter fun f hf row hrow => ?_
    rw [accepts, meets]
    cases hu : Record.find? row f.property with
    | none => rfl
    | some u =>
      obtain ⟨k, hkind, a, ha⟩ := hrows row hrow f hf u hu
      have hk : k ≠ .other := by
        rintro rfl
        cases ha
      obtain ⟨_, hgiven⟩ := coerceValue_of_coerceAll hcoerce hf hkind
      obtain ⟨b, hb⟩ := has_of_coerceValue hk hgiven (hfilters f hf).1 (hfilters f hf).2
      rw [hkind]
      exact compares_of_key ha hb f.operator

/-- Midnight of the second day, two hours ahead of UTC. -/
def secondDay : DateTime := ⟨Calendar.microsPerDay + 2 * Calendar.microsPerHour, some 7200⟩

/-- Plain dates against a time with an offset: the first day is before it and the second is not. -/
theorem selects_in_natural_order_days :
    accepts ⟨"day", .lt, .datetime (.utc Calendar.microsPerDay)⟩ [("day", .date ⟨0⟩)] = .ok true ∧
      selectAll [⟨"day", .gte, .datetime (.utc Calendar.microsPerDay)⟩]
          [[("day", .date ⟨0⟩)], [("day", .date ⟨1⟩)]] = .ok [[("day", .date ⟨1⟩)]] := by
  obtain ⟨hone, hall⟩ := selects_in_natural_order [("day", .timestamp)]
    [⟨"day", .gte, .datetime secondDay⟩]
    [⟨"day", .gte, .datetime (.utc Calendar.microsPerDay)⟩]
    [[("day", .date ⟨0⟩)], [("day", .date ⟨1⟩)]]
  have hday (n : Int) (h : instant? (.ofDate ⟨n⟩) = some (DateTime.ofDate ⟨n⟩).instant) :
      timestamp.Has (.date ⟨n⟩) := ⟨_, h⟩
  constructor
  · exact (hone .timestamp "day" "day" .lt (.datetime secondDay) _ (.date ⟨0⟩) _ rfl (by simp)
      (by simp) (hday 0 rfl) rfl).2
  · refine hall rfl ?_ ?_
    · simp [Compares]
    · intro row hrow f hf u hu
      cases List.mem_singleton.mp hf
      refine ⟨.timestamp, rfl, ?_⟩
      rcases List.mem_pair.mp hrow with rfl | rfl
      · cases hu
        exact hday 0 rfl
      · cases hu
        exact hday 1 rfl

end Filter
end EventQuery
