import EventQuery.Proofs.Engine.Conditions
import EventQuery.Proofs.Filter.Agreement

/-!
# EventQuery.Proofs.Filter.Idempotence

What coercion comes to, and that it is over after one time. In each kind there are values that
coercion leaves alone: null and those of the kind (`ColumnKind.Covers`), such as times of the
calendar on a UTC clock or doubles. Coercion comes to one of these or fails
(`coerceValue_eq_self_iff`, `eq_null_or_covers_of_coerceValue`), so filters that were coerced are
not changed by doing so again, and the cast of a placeholder is known from the kind of the column
(`coerces_once`).
-/

namespace EventQuery

/-- The values of a kind, in the form in which they are bound. -/
def ColumnKind.Covers (k : ColumnKind) (v : Value) : Prop :=
  match k with
  | timestamp => ∃ i, v = .datetime (.utc i) ∧ Calendar.inYears i = true
  | number => ∃ x, v = .float x
  | text => ∃ s, v = .text s
  | boolean => ∃ b, v = .bool b
  | other => True

/-- The cast of a value of a kind; values of no known kind have their own. -/
def ColumnKind.cast? : ColumnKind → Option String
  | timestamp => some "::timestamptz"
  | number => some "::float8"
  | text | boolean => some ""
  | other => none

namespace Filter

variable {column : String} {v w : Value} {k : ColumnKind} {kinds : List (String × ColumnKind)}

/-! ## Values -/

theorem coerceValue_null (column : String) (k : ColumnKind) :
    coerceValue column .null k = .ok .null := rfl

theorem coerceValue_other (column : String) (v : Value) : coerceValue column v .other = .ok v := by
  unfold coerceValue
  split <;> rfl

theorem coerceValue_of_covers (column : String) (h : k.Covers v) :
    coerceValue column v k = .ok v := by
  cases k with
  | timestamp =>
    obtain ⟨i, rfl, hyears⟩ := h
    have hutc : (Value.datetime (.utc i)).utc? = .ok (some (.utc i)) := by
      have hinstant := DateTime.instant_utc i
      simp [Value.utc?, Value.moment?, DateTime.inUtc, hinstant, hyears, Except.map]
    show toTimestamp column (.datetime (.utc i)) = _
    rw [toTimestamp, hutc]
  | number =>
    obtain ⟨x, rfl⟩ := h
    rfl
  | text =>
    obtain ⟨s, rfl⟩ := h
    rfl
  | boolean =>
    obtain ⟨b, rfl⟩ := h
    rfl
  | other => exact coerceValue_other column v

/-- What a value other than null comes to. -/
theorem covers_of_coerceValue (hv : v ≠ .null) (h : coerceValue column v k = .ok w) :
    k.Covers w := by
  have hnull : ¬v.isNull = true := by
    intro hnull
    cases v with
    | null => exact hv rfl
    | _ => cases hnull
  unfold coerceValue at h
  rw [if_neg hnull] at h
  cases k with
  | timestamp => exact toTimestamp_eq_ok h
  | number => exact toNumber_eq_ok h
  | text => exact toText_eq_ok h
  | boolean => exact toBoolean_eq_ok h
  | other => trivial

theorem eq_null_or_covers_of_coerceValue (h : coerceValue column v k = .ok w) :
    w = .null ∨ k.Covers w := by
  by_cases hv : v = .null
  · subst hv
    exact .inl (Except.ok.inj h).symm
  · exact .inr (covers_of_coerceValue hv h)

/-- Coercion leaves alone null and the values of the kind, and no others. -/
theorem coerceValue_eq_self_iff : coerceValue column v k = .ok v ↔ v = .null ∨ k.Covers v := by
  constructor
  · exact eq_null_or_covers_of_coerceValue
  · rintro (rfl | h)
    · exact coerceValue_null column k
    · exact coerceValue_of_covers column h

theorem coerceValue_coerceValue (h : coerceValue column v k = .ok w) :
    coerceValue column w k = .ok w :=
  coerceValue_eq_self_iff.mpr (eq_null_or_covers_of_coerceValue h)

/-! ## Filters -/

theorem coerce_coerce {f g : Filter} (h : coerce kinds f = .ok g) : coerce kinds g = .ok g := by
  unfold coerce at h
  split at h
  · rename_i hnone
    cases h
    rw [coerce, hnone]
  · rename_i kind hsome
    obtain ⟨v, hv, rfl⟩ := Outcome.map_eq_ok h
    rw [coerce, hsome]
    dsimp only
    rw [coerceValue_coerceValue hv]
    rfl

theorem coerceAll_coerceAll (raw : List Filter) :
    coerceAll kinds raw >>= coerceAll kinds = coerceAll kinds raw := by
  cases h : coerceAll kinds raw with
  | error e => rfl
  | ok filters =>
    show coerceAll kinds filters = .ok filters
    have hall := coerceAll_eq_ok h
    clear h
    induction hall with
    | nil => rfl
    | cons hfirst _ ih => rw [coerceAll, coerce_coerce hfirst, ih]

/-! ## Casts -/

/-- The cast of a filter's placeholder, by the kind of its column; null has none. -/
def castFor (kinds : List (String × ColumnKind)) (f : Filter) : String :=
  if f.value.isNull then ""
  else ((kindFor kinds f.property).bind ColumnKind.cast?).getD f.value.cast

theorem cast_of_covers {cast : String} (h : k.Covers v) (hk : k.cast? = some cast) :
    v.cast = cast := by
  cases k with
  | timestamp =>
    obtain ⟨i, rfl, _⟩ := h
    exact Option.some.inj hk
  | number =>
    obtain ⟨x, rfl⟩ := h
    exact Option.some.inj hk
  | text =>
    obtain ⟨s, rfl⟩ := h
    exact Option.some.inj hk
  | boolean =>
    obtain ⟨b, rfl⟩ := h
    exact Option.some.inj hk
  | other => cases hk

theorem castFor_eq {raw filters : List Filter} (h : coerceAll kinds raw = .ok filters)
    {f : Filter} (hf : f ∈ filters) : castFor kinds f = f.value.cast := by
  unfold castFor
  split
  · rename_i hnull
    cases hv : f.value with
    | null => rfl
    | _ =>
      rw [hv] at hnull
      cases hnull
  · rename_i hnull
    cases hcast : (kindFor kinds f.property).bind ColumnKind.cast? with
    | none => rfl
    | some cast =>
      obtain ⟨kind, hkind, hcast⟩ := Option.bind_eq_some_iff.mp hcast
      obtain ⟨given, hgiven⟩ := coerceValue_of_coerceAll h hf hkind
      rcases eq_null_or_covers_of_coerceValue hgiven with hv | hcovers
      · rw [hv] at hnull
        exact absurd rfl hnull
      · exact (cast_of_covers hcovers hcast).symm

theorem eq_comparisons_of_predicate {filters : List Filter} {p : Predicate}
    (h : predicate filters = .ok (some p)) : p = .comparisons filters := by
  unfold predicate at h
  split at h
  · cases h
  · obtain ⟨_, _, hsome⟩ := Outcome.map_eq_ok h
    exact (Option.some.inj hsome).symm

/-- A value comes into the kind of its column, where it stays as it is; so do all filters, and in
the condition that they make each placeholder has the cast of its column's kind. -/
theorem coerces_once :
    (∀ column v k w, coerceValue column v k = .ok w →
        (v = .null ∨ k = .other → w = v) ∧ (v ≠ .null → k.Covers w) ∧
          coerceValue column w k = .ok w) ∧
      ∀ kinds raw, coerceAll kinds raw >>= coerceAll kinds = coerceAll kinds raw ∧
        ∀ filters p bound, coerceAll kinds raw = .ok filters → predicate filters = .ok (some p) →
          p.text bound = " AND ".intercalate ((filters.zipIdx bound).map fun (f, i) =>
            Name.inQuotes f.property ++ " " ++ f.operator.sql ++ " " ++ placeholder (i + 1) ++
              castFor kinds f) := by
  constructor
  · intro column v k w h
    refine ⟨?_, fun hv => covers_of_coerceValue hv h, coerceValue_coerceValue h⟩
    rintro (rfl | rfl)
    · exact (Except.ok.inj h).symm
    · rw [coerceValue_other] at h
      exact (Except.ok.inj h).symm
  · intro kinds raw
    refine ⟨coerceAll_coerceAll raw, fun filters p bound h hp => ?_⟩
    obtain rfl := eq_comparisons_of_predicate hp
    rw [Predicate.text, Predicate.comparisonTexts_eq]
    refine congrArg (" AND ".intercalate ·) (List.map_congr_left fun x hx => ?_)
    obtain ⟨f, i⟩ := x
    dsimp only
    rw [castFor_eq h (List.fst_mem_of_mem_zipIdx hx), Predicate.comparisonText]

/-- A midnight in UTC, as a clock two hours ahead shows it. -/
def atMidnight : Value := .text "2026-03-14T02:00+02:00"

def midnight : DateTime := .utc ((Civil.date ⟨2026, 3, 14⟩).days * Calendar.microsPerDay)

/-- Filters on a column of each kind but `other`, and one for a value that is missing. -/
def mixedFilters : List Filter :=
  [⟨Name.timestampColumn, .gte, atMidnight⟩, ⟨"voltage", .gt, .float .zero⟩,
    ⟨"device", .eq, .int 7⟩, ⟨"active", .ne, .text "TRUE"⟩, ⟨"current", .eq, .null⟩]

def mixedKinds : List (String × ColumnKind) :=
  [("voltage", .number), ("device", .text), ("active", .boolean), ("current", .number)]

def coercedFilters : List Filter :=
  [⟨Name.timestampColumn, .gte, .datetime midnight⟩, ⟨"voltage", .gt, .float .zero⟩,
    ⟨"device", .eq, .text "7"⟩, ⟨"active", .ne, .bool true⟩, ⟨"current", .eq, .null⟩]

theorem coerceAll_mixedFilters : coerceAll mixedKinds mixedFilters = .ok coercedFilters := by
  have hutc : atMidnight.utc? = .ok (some midnight) := by decide +kernel
  have htime : coerceValue Name.timestampColumn atMidnight .timestamp
      = .ok (.datetime midnight) := by
    show toTimestamp Name.timestampColumn atMidnight = _
    rw [toTimestamp, hutc]
  have hfirst : coerce mixedKinds ⟨Name.timestampColumn, .gte, atMidnight⟩ =
      (coerceValue Name.timestampColumn atMidnight .timestamp).map
        fun v => ⟨Name.timestampColumn, .gte, v⟩ := rfl
  rw [mixedFilters, coerceAll, hfirst, htime]
  rfl

theorem coerces_once_mixedFilters :
    coerceValue "device" (.int 7) .text = .ok (.text "7") ∧
      coerceValue "device" (.text "7") .text = .ok (.text "7") ∧
      coerceAll mixedKinds coercedFilters = .ok coercedFilters ∧
      ∃ p, predicate coercedFilters = .ok (some p) ∧
        p.text 0 = "\"cenote$timestamp\" >= $1::timestamptz AND \"voltage\" > $2::float8" ++
          " AND \"device\" = $3 AND \"active\" <> $4 AND \"current\" = $5" := by
  obtain ⟨hvalues, hfilters⟩ := coerces_once
  obtain ⟨hagain, htext⟩ := hfilters mixedKinds mixedFilters
  have hseven : coerceValue "device" (.int 7) .text = .ok (.text "7") := rfl
  have hpredicate : predicate coercedFilters = .ok (some (.comparisons coercedFilters)) := rfl
  rw [coerceAll_mixedFilters] at hagain
  refine ⟨hseven, (hvalues _ _ _ _ hseven).2.2, hagain, _, hpredicate, ?_⟩
  rw [htext coercedFilters _ 0 coerceAll_mixedFilters hpredicate]
  decide +kernel

end Filter
end EventQuery
