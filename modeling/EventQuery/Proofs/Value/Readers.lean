import EventQuery.Proofs.Bucket.Alignment
import EventQuery.Proofs.Calendar.Blank
import EventQuery.Proofs.Calendar.Denotation
import EventQuery.Proofs.Filter.Agreement
import EventQuery.Proofs.Timeframe.Faults

/-!
# EventQuery.Proofs.Value.Readers

Bounds of timeframes, values of filters and times of buckets are read in three places, and of the
same instant each makes the same: however a timestamp is written, a bound and a filter's value are
its instant in UTC, and its bucket is the one of that instant (`bound_of_tells`,
`coerceValue_of_tells`, `startOf_of_tells`). A value that is coerced for a filter stays in its
bucket. So a row is windowed, filtered and put in a bucket by one instant (`readers_agree`).
-/

namespace EventQuery

open Calendar

variable {s s' : String} {x : ℚ} {v w : Value}

theorem DateTime.inUtc_of_inYears {t : DateTime} (h : inYears t.instant = true) :
    t.inUtc = .ok (.utc t.instant) := by
  rw [inUtc, if_pos h]

namespace Timeframe

/-- A timeframe that holds its bounds in a record: as an object, or in text as JSON. -/
inductive Holds : Value → Record → Prop where
  | object (fields : Record) : Holds (.object fields) fields
  | text {raw : String} {rest : List Char} {fields : Record} :
      (Text.trimmed raw).toList = '\x7b' :: rest →
      Json.read? (Text.trimmed raw) = some (.object fields) → Holds (.text raw) fields

/-- The same bounds, but that one text may stand in the place of another. -/
def Exchanges (s s' : String) (fields fields' : Record) : Prop :=
  ∀ field ∈ ["start", "end"], Record.value fields field = Record.value fields' field ∨
    Record.value fields field = .text s ∧ Record.value fields' field = .text s'

theorem Holds.resolve_eq {timeframe : Value} {fields : Record} (h : Holds timeframe fields)
    (now : DateTime) : resolve timeframe now = (resolveAbsolute fields).map some := by
  cases h with
  | object => rfl
  | @text raw rest _ hbrace hread =>
    have hraw : raw.isEmpty = false := by
      rw [Bool.eq_false_iff]
      intro hempty
      rw [String.isEmpty_iff.mp hempty] at hbrace
      cases hbrace
    have htext : resolveText raw now = resolveAbsolute fields := by
      simp [resolveText, hbrace, hread]
    simp [resolve, hraw, htext]

/-- A bound is the instant that is told. -/
theorem bound_of_tells {fields : Record} {field : String} (h : Timestamp.Tells s x)
    (hfield : Record.value fields field = .text s) : bound fields field = .ok (.utc ⌊x⌋) := by
  obtain ⟨t, ht, hinstant, hyears⟩ := h.read?_eq
  have hfull := Timestamp.trimmed_of_read? ht
  rw [← hinstant, ← DateTime.inUtc_of_inYears hyears]
  simp [bound, hfield, Value.text?, hfull, ht]

theorem bound_eq_of_exchanges {fields fields' : Record} (h : Timestamp.Tells s x)
    (h' : Timestamp.Tells s' x) (hsame : Exchanges s s' fields fields') {field : String}
    (hfield : field ∈ ["start", "end"]) : bound fields field = bound fields' field := by
  rcases hsame field hfield with heq | ⟨hs, hs'⟩
  · rw [bound, bound, heq]
  · rw [bound_of_tells h hs, bound_of_tells h' hs']

theorem resolveAbsolute_eq_of_exchanges {fields fields' : Record} (h : Timestamp.Tells s x)
    (h' : Timestamp.Tells s' x) (hsame : Exchanges s s' fields fields') :
    resolveAbsolute fields = resolveAbsolute fields' := by
  rw [resolveAbsolute, resolveAbsolute, bound_eq_of_exchanges h h' hsame List.mem_cons_self,
    bound_eq_of_exchanges h h' hsame (List.mem_cons_of_mem _ List.mem_cons_self)]

end Timeframe

/-! ## Filters and buckets -/

namespace Filter

theorem coerceValue_of_tells (column : String) (h : Timestamp.Tells s x) :
    coerceValue column (.text s) .timestamp = .ok (.datetime (.utc ⌊x⌋)) := by
  obtain ⟨t, ht, hinstant, hyears⟩ := h.read?_eq
  have hutc : (Value.text s).utc? = .ok (some (.utc t.instant)) := by
    rw [Value.utc?, Value.moment?, ht]
    dsimp only
    rw [DateTime.inUtc_of_inYears hyears]
    rfl
  show toTimestamp column (.text s) = _
  rw [toTimestamp, hutc, hinstant]

/-- What is accepted in a filter of times is null or a time, which it becomes in UTC. -/
theorem coerceValue_timestamp_eq_ok {column : String}
    (h : coerceValue column v .timestamp = .ok w) :
    v = .null ∧ w = .null ∨ ∃ t, v.moment? = some t ∧ w = .datetime (.utc t.instant) := by
  unfold coerceValue at h
  split at h
  · rename_i hnull
    cases h
    cases v with
    | null => exact .inl ⟨rfl, rfl⟩
    | _ => cases hnull
  · dsimp only at h
    unfold toTimestamp Value.utc? at h
    cases hmoment : v.moment? with
    | none =>
      rw [hmoment] at h
      exact absurd h refuse_ne_ok
    | some t =>
      rw [hmoment] at h
      dsimp only at h
      unfold DateTime.inUtc at h
      split_ifs at h
      · cases h
        exact .inr ⟨t, rfl, rfl⟩
      · cases h

end Filter

namespace Bucket

theorem startOf_of_tells (i : Interval) (h : Timestamp.Tells s x) :
    startOf (.text s) i = .ok (i.floor ⌊x⌋) := by
  obtain ⟨t, ht, hinstant, _⟩ := h.read?_eq
  rw [← hinstant]
  exact startOf_of_moment i ht

/-- A value and what it becomes in a filter of times are in one bucket. -/
theorem startOf_coerced {column : String} (i : Interval)
    (h : Filter.coerceValue column v .timestamp = .ok w) : startOf v i = startOf w i := by
  rcases Filter.coerceValue_timestamp_eq_ok h with ⟨rfl, rfl⟩ | ⟨t, ht, rfl⟩
  · rfl
  · rw [startOf_of_moment i ht, startOf_of_moment i rfl, DateTime.instant_utc]

end Bucket

/-- Of two timestamps of one instant, in whatever notation and with whatever offsets, the same
window, the same value and the same buckets are made, and a value is in the bucket of what it
becomes in a filter. -/
theorem readers_agree :
    (∀ s s' x, Timestamp.Tells s x → Timestamp.Tells s' x →
      (∀ fields field, Record.value fields field = .text s ∨ Record.value fields field = .text s' →
        Timeframe.bound fields field = .ok (.utc ⌊x⌋)) ∧
      (∀ timeframe timeframe' fields fields' now, Timeframe.Holds timeframe fields →
        Timeframe.Holds timeframe' fields' → Timeframe.Exchanges s s' fields fields' →
        Timeframe.resolve timeframe now = Timeframe.resolve timeframe' now) ∧
      (∀ column, Filter.coerceValue column (.text s) .timestamp = .ok (.datetime (.utc ⌊x⌋)) ∧
        Filter.coerceValue column (.text s') .timestamp = .ok (.datetime (.utc ⌊x⌋))) ∧
      ∀ i, Bucket.startOf (.text s) i = .ok (i.floor ⌊x⌋) ∧
        Bucket.startOf (.text s') i = .ok (i.floor ⌊x⌋)) ∧
    ∀ column v w i, Filter.coerceValue column v .timestamp = .ok w →
      Bucket.startOf v i = Bucket.startOf w i := by
  refine ⟨fun s s' x h h' => ⟨?_, ?_, ?_, ?_⟩, fun _ _ _ i => Bucket.startOf_coerced i⟩
  · rintro fields field (hfield | hfield)
    · exact Timeframe.bound_of_tells h hfield
    · exact Timeframe.bound_of_tells h' hfield
  · intro timeframe timeframe' fields fields' now hholds hholds' hsame
    rw [hholds.resolve_eq, hholds'.resolve_eq,
      Timeframe.resolveAbsolute_eq_of_exchanges h h' hsame]
  · exact fun column =>
      ⟨Filter.coerceValue_of_tells column h, Filter.coerceValue_of_tells column h'⟩
  · exact fun i => ⟨Bucket.startOf_of_tells i h, Bucket.startOf_of_tells i h'⟩

/-- The two as the start of a window, in a filter and in the bucket of a year. -/
theorem readers_agree_newYear :
    Timeframe.resolve (.object [("start", .text "2026-12-31T23:30:00.5-01:30"),
        ("end", .text "2027-01-02")]) (.utc 0)
      = Timeframe.resolve (.object [("start", .text "20270101 010000.500"),
        ("end", .text "2027-01-02")]) (.utc 0) ∧
    Filter.coerceValue "at" (.text "2026-12-31T23:30:00.5-01:30") .timestamp
      = Filter.coerceValue "at" (.text "20270101 010000.500") .timestamp ∧
    Bucket.startOf (.text "2026-12-31T23:30:00.5-01:30") .yearly
      = Bucket.startOf (.text "20270101 010000.500") .yearly ∧
    Bucket.startOf (.text "2026-12-31T23:30:00.5-01:30") .yearly
      = Bucket.startOf (.datetime (.utc ⌊Timestamp.evening.exact⌋)) .yearly := by
  obtain ⟨_, hresolve, hcoerce, hstart⟩ :=
    readers_agree.1 _ _ _ Timestamp.tells_evening Timestamp.tells_night
  obtain ⟨hevening, hnight⟩ := hcoerce "at"
  refine ⟨hresolve _ _ _ _ _ (.object _) (.object _) ?_, hevening.trans hnight.symm,
    (hstart .yearly).1.trans (hstart .yearly).2.symm, readers_agree.2 _ _ _ _ hevening⟩
  intro field hfield
  rcases List.mem_cons.mp hfield with rfl | hfield
  · exact .inr ⟨rfl, rfl⟩
  · rw [List.mem_singleton.mp hfield]
    exact .inl rfl

end EventQuery
