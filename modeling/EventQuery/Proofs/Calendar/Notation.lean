import EventQuery.Calendar.Timestamp.Standard
import EventQuery.Proofs.Text.Digit
import Mathlib.Data.List.TakeWhile

/-!
# EventQuery.Proofs.Calendar.Notation

The standard notation of timestamps as a grammar (`Writes`): a date with the largest unit first, in
digits with marks between them or without, a time of day with or without colons, and an offset.
What is written in the grammar is read as what was written (`read?_of_writes`). Each part is read
off the front of a text, up to where the rest cannot belong to it (`Ends`).
-/

namespace EventQuery
namespace Timestamp
namespace Standard

open Text

/-! ## Grammar -/

/-- A run of digits, within bounds of its length, that writes a number. -/
structure Number (least most : Nat) (ds : List Char) (n : Nat) : Prop where
  digits : Digits ds
  least_le : least ≤ ds.length
  le_most : ds.length ≤ most
  value : numberOf ds = n

instance (least most : Nat) (ds : List Char) (n : Nat) : Decidable (Number least most ds n) :=
  decidable_of_iff
    (ds.all Char.isDigit = true ∧ least ≤ ds.length ∧ ds.length ≤ most ∧ numberOf ds = n)
    ⟨fun ⟨hdigits, hleast, hmost, hvalue⟩ =>
      ⟨List.all_eq_true.mp hdigits, hleast, hmost, hvalue⟩,
    fun h => ⟨List.all_eq_true.mpr h.digits, h.least_le, h.le_most, h.value⟩⟩

def Blanks (s : List Char) : Prop := ∀ c ∈ s, isSpace c = true

/-- What stands between two parts of a time: a colon or nothing. -/
def joint (colons : Bool) : List Char := if colons then [':'] else []

/-- Parts of a time without colons between them have two digits each. -/
def leastDigits (colons : Bool) : Nat := if colons then 1 else 2

/-- A day: with the same mark between its parts, or in eight digits. -/
inductive WritesDay : List Char → Civil → Prop where
  | marked {mark : Char} {ys ms ds : List Char} {y m d : Nat} : isDateMark mark = true →
      Number 4 4 ys y → Number 1 2 ms m → Number 1 2 ds d →
      WritesDay (ys ++ mark :: (ms ++ mark :: ds)) ⟨y, m, d⟩
  | compact {ys ms ds : List Char} {y m d : Nat} :
      Number 4 4 ys y → Number 2 2 ms m → Number 2 2 ds d →
      WritesDay (ys ++ (ms ++ ds)) ⟨y, m, d⟩

/-- A time of day: hours, and perhaps minutes, seconds and a fraction. -/
inductive WritesClock : List Char → Clock → Prop where
  | hour {hs : List Char} {h : Nat} : Number 2 2 hs h → h < 24 → WritesClock hs ⟨3600 * h, []⟩
  | minute {colons : Bool} {hs ms : List Char} {h m : Nat} :
      Number (leastDigits colons) 2 hs h → Number (leastDigits colons) 2 ms m →
      h < 24 → m < 60 → WritesClock (hs ++ (joint colons ++ ms)) ⟨3600 * h + 60 * m, []⟩
  | second {colons : Bool} {hs ms ss : List Char} {h m s : Nat} :
      Number (leastDigits colons) 2 hs h → Number (leastDigits colons) 2 ms m →
      Number (leastDigits colons) 2 ss s → h < 24 → m < 60 → s < 60 →
      WritesClock (hs ++ (joint colons ++ (ms ++ (joint colons ++ ss))))
        ⟨3600 * h + 60 * m + s, []⟩
  | fraction {colons : Bool} {hs ms ss fs : List Char} {h m s : Nat} :
      Number (leastDigits colons) 2 hs h → Number (leastDigits colons) 2 ms m →
      Number (leastDigits colons) 2 ss s → h < 24 → m < 60 → s < 60 →
      Digits fs → fs.length ≤ 18 →
      WritesClock (hs ++ (joint colons ++ (ms ++ (joint colons ++ (ss ++ '.' :: fs)))))
        ⟨3600 * h + 60 * m + s, fs⟩

/-- The sign of an offset: ahead of UTC or behind. -/
inductive Sign : Char → Int → Prop where
  | ahead : Sign '+' 1
  | behind : Sign '-' (-1)

/-- What follows a time: nothing, a mark for UTC, or an offset, with blanks around it. Behind an
offset of hours alone there are none. -/
inductive WritesZone : List Char → Option Int → Prop where
  | none {bs : List Char} : Blanks bs → WritesZone bs none
  | utc {bs bs' : List Char} : Blanks bs → Blanks bs' → WritesZone (bs ++ 'Z' :: bs') (some 0)
  | hours {bs hs : List Char} {sign : Char} {k : Int} {h : Nat} : Blanks bs → Sign sign k →
      Number 1 2 hs h → h < 24 → WritesZone (bs ++ sign :: hs) (some (k * (3600 * h)))
  | minutes {colons : Bool} {bs hs ms bs' : List Char} {sign : Char} {k : Int} {h m : Nat} :
      Blanks bs → Sign sign k → Number (leastDigits colons) 2 hs h → Number 1 2 ms m →
      h < 24 → m < 60 → Blanks bs' →
      WritesZone (bs ++ sign :: (hs ++ (joint colons ++ (ms ++ bs'))))
        (some (k * (3600 * h + 60 * m)))

/-- A text in the standard notation: a year, a month, a day, or a day with a time of day. -/
inductive Writes : List Char → Reading → Prop where
  | year {bs ys : List Char} {y : Nat} : Blanks bs → Number 4 4 ys y →
      Writes (bs ++ ys) ⟨(Civil.mk y 1 1).date, {}, none⟩
  | month {bs ys ms : List Char} {mark : Char} {y m : Nat} : Blanks bs → Number 4 4 ys y →
      isDateMark mark = true → Number 1 2 ms m → (Civil.mk y m 1).isValid = true →
      Writes (bs ++ (ys ++ mark :: ms)) ⟨(Civil.mk y m 1).date, {}, none⟩
  | day {bs ds : List Char} {civil : Civil} : Blanks bs → WritesDay ds civil →
      civil.isValid = true → Writes (bs ++ ds) ⟨civil.date, {}, none⟩
  | time {bs ds ts zs : List Char} {mark : Char} {civil : Civil} {clock : Clock}
      {offset : Option Int} : Blanks bs → WritesDay ds civil → civil.isValid = true →
      mark = 'T' ∨ mark = ' ' → WritesClock ts clock → WritesZone zs offset →
      Writes (bs ++ (ds ++ mark :: (ts ++ zs))) ⟨civil.date, clock, offset⟩

/-! ## Digits -/

theorem Number.mono {least least' most : Nat} {ds : List Char} {n : Nat}
    (h : Number least most ds n) (hle : least' ≤ least) : Number least' most ds n :=
  ⟨h.digits, hle.trans h.least_le, h.le_most, h.value⟩

theorem noDigit_nil : NoDigit [] := nofun

/-- A run of digits is taken as far as it may be long. -/
theorem takeWhile_take_digits {most : Nat} {ds rest : List Char} (hds : Digits ds)
    (hmost : ds.length ≤ most) (hrest : ds.length = most ∨ NoDigit rest) :
    ((ds ++ rest).take most).takeWhile Char.isDigit = ds := by
  rcases hrest with hlength | hrest
  · rw [← hlength, List.take_left]
    have hnil : (ds ++ []).takeWhile Char.isDigit = ds := takeWhile_digits hds noDigit_nil
    rwa [List.append_nil] at hnil
  · rw [List.take_append, List.take_of_length_le hmost]
    refine takeWhile_digits hds fun c hc => ?_
    cases rest with
    | nil => simp at hc
    | cons d rest =>
      cases hk : most - ds.length with
      | zero => simp [hk] at hc
      | succ k =>
        rw [hk] at hc
        exact hrest c hc

theorem digits?_append {least most : Nat} {ds rest : List Char} {n : Nat}
    (h : Number least most ds n) (hrest : ds.length = most ∨ NoDigit rest) :
    digits? least most (ds ++ rest) = some (n, rest) := by
  have hleast := Nat.not_lt.mpr h.least_le
  simp [digits?, takeWhile_take_digits h.digits h.le_most hrest, hleast, h.value]

theorem Number.eq_cons {k most : Nat} {ds : List Char} {n : Nat} (h : Number (k + 1) most ds n) :
    ∃ c rest, ds = c :: rest ∧ c.isDigit = true := by
  cases ds with
  | nil => exact absurd h.least_le (by simp)
  | cons c rest => exact ⟨c, rest, rfl, h.digits c List.mem_cons_self⟩

theorem Number.length_eq {k : Nat} {ds : List Char} {n : Nat} (h : Number k k ds n) :
    ds.length = k :=
  Nat.le_antisymm h.le_most h.least_le

/-- As many digits as there may be are taken, whatever follows. -/
theorem Number.taken {k : Nat} {ds : List Char} {n : Nat} (h : Number k k ds n)
    (rest : List Char) : digits? k k (ds ++ rest) = some (n, rest) :=
  digits?_append h (.inl h.length_eq)

/-- At the end of a text all digits are taken. -/
theorem Number.taken_end {least most : Nat} {ds : List Char} {n : Nat}
    (h : Number least most ds n) : digits? least most ds = some (n, []) := by
  simpa using digits?_append h (.inr noDigit_nil)

theorem noDigit_cons {c : Char} (hc : c.isDigit = false) (rest : List Char) :
    NoDigit (c :: rest) := by
  intro d hd
  rw [List.head?_cons, Option.mem_some_iff] at hd
  rw [← hd]
  exact hc

/-! ## Marks -/

theorem isDigit_of_isSpace {c : Char} (h : isSpace c = true) : c.isDigit = false := by
  rw [Bool.eq_false_iff]
  intro hdigit
  obtain ⟨hlow, -⟩ : 48 ≤ c.toNat ∧ c.toNat ≤ 57 := Char.isDigit_iff_toNat.mp hdigit
  simp only [isSpace, Bool.or_eq_true, beq_iff_eq, Bool.and_eq_true, decide_eq_true_eq] at h
  rcases h with rfl | ⟨-, hhigh⟩
  · contradiction
  · have hhigh : c.toNat ≤ 13 := hhigh
    omega

theorem isDigit_of_isDateMark {c : Char} (h : isDateMark c = true) : c.isDigit = false := by
  simp only [isDateMark, Bool.or_eq_true, beq_iff_eq] at h
  rcases h with (((rfl | rfl) | rfl) | rfl) | rfl <;> rfl

theorem isSpace_of_isDigit {c : Char} (h : c.isDigit = true) : isSpace c = false := by
  rw [Bool.eq_false_iff]
  intro hspace
  exact Bool.eq_false_iff.mp (isDigit_of_isSpace hspace) h

theorem isDateMark_of_isDigit {c : Char} (h : c.isDigit = true) : isDateMark c = false := by
  rw [Bool.eq_false_iff]
  intro hmark
  exact Bool.eq_false_iff.mp (isDigit_of_isDateMark hmark) h

theorem dropWhile_blanks {bs : List Char} {c : Char} (hbs : Blanks bs) (rest : List Char)
    (hc : isSpace c = false) : (bs ++ c :: rest).dropWhile isSpace = c :: rest := by
  rw [List.dropWhile_append_of_pos hbs, List.dropWhile_cons_of_neg (by simp [hc])]

theorem noDigit_blanks {bs : List Char} (hbs : Blanks bs) : NoDigit bs := by
  intro c hc
  exact isDigit_of_isSpace (hbs c (List.mem_of_mem_head? hc))

/-! ## Date -/

theorem year?_append {bs ys : List Char} {y : Nat} (hbs : Blanks bs) (hys : Number 4 4 ys y)
    (rest : List Char) : year? (bs ++ (ys ++ rest)) = some ((y : Int), rest) := by
  have htaken := hys.taken rest
  obtain ⟨c, more, rfl, hc⟩ := hys.eq_cons
  have hbare := dropWhile_blanks hbs (more ++ rest) (isSpace_of_isDigit hc)
  have hminus : c ≠ '-' := ne_of_isDigit hc rfl
  have hfirst : (bs ++ c :: (more ++ rest)).head? ≠ some '-' := by
    cases bs with
    | nil => simpa using hminus
    | cons b bs =>
      have hb := hbs b List.mem_cons_self
      have hb : b ≠ '-' := by
        rintro rfl
        cases hb
      simpa using hb
  rw [List.cons_append] at htaken ⊢
  generalize bs ++ c :: (more ++ rest) = s at hbare hfirst ⊢
  simp [year?, hbare, hminus, hfirst, htaken]

theorem monthDay?_month {mark : Char} {ms : List Char} {m : Nat} (hmark : isDateMark mark = true)
    (hms : Number 1 2 ms m) : monthDay? (mark :: ms) = some (m, 1, []) := by
  have htaken := hms.taken_end
  simp [monthDay?, hmark, htaken]

theorem monthDay?_marked {mark : Char} {ms ds rest : List Char} {m d : Nat}
    (hmark : isDateMark mark = true) (hms : Number 1 2 ms m) (hds : Number 1 2 ds d)
    (hrest : NoDigit rest) :
    monthDay? (mark :: (ms ++ mark :: (ds ++ rest))) = some (m, d, rest) := by
  have hnext := noDigit_cons (isDigit_of_isDateMark hmark) (ds ++ rest)
  simp [monthDay?, hmark, digits?_append hms (.inr hnext), digits?_append hds (.inr hrest)]

theorem monthDay?_compact {ms ds rest : List Char} {m d : Nat}
    (hms : Number 2 2 ms m) (hds : Number 2 2 ds d) :
    monthDay? (ms ++ (ds ++ rest)) = some (m, d, rest) := by
  have hmonth := hms.taken (ds ++ rest)
  have hday := hds.taken rest
  obtain ⟨c, more, rfl, hc⟩ := hms.eq_cons
  rw [List.cons_append] at hmonth ⊢
  simp [monthDay?, isDateMark_of_isDigit hc, hmonth, hday]

/-- A day is read off the front of a text that does not go on with a digit. -/
theorem WritesDay.taken {ds : List Char} {civil : Civil} (h : WritesDay ds civil)
    {bs rest : List Char} (hbs : Blanks bs) (hrest : NoDigit rest) :
    ∃ more, year? (bs ++ (ds ++ rest)) = some (civil.year, more) ∧
      monthDay? more = some (civil.month, civil.day, rest) := by
  cases h with
  | @marked mark ys ms ds y m d hmark hys hms hds =>
    refine ⟨mark :: (ms ++ mark :: (ds ++ rest)), ?_, monthDay?_marked hmark hms hds hrest⟩
    simpa using year?_append hbs hys (mark :: (ms ++ mark :: (ds ++ rest)))
  | @compact ys ms ds y m d hys hms hds =>
    refine ⟨ms ++ (ds ++ rest), ?_, monthDay?_compact hms hds⟩
    simpa using year?_append hbs hys (ms ++ (ds ++ rest))

/-! ## Time of day -/

/-- What cannot belong to a time of day. -/
def Ends (rest : List Char) : Prop :=
  ∀ c ∈ rest.head?, c.isDigit = false ∧ c ≠ ':' ∧ c ≠ '.'

theorem Ends.noDigit {rest : List Char} (h : Ends rest) : NoDigit rest :=
  fun c hc => (h c hc).1

theorem nextPart_of_ends {rest : List Char} (h : Ends rest) (colons : Bool) :
    nextPart colons rest = none := by
  cases rest with
  | nil => rfl
  | cons c rest =>
    obtain ⟨hdigit, hcolon, -⟩ := h c rfl
    cases colons
    · simp [nextPart, hdigit]
    · simp [nextPart, hcolon]

/-- Between two parts stands what the reader of the next part expects there. -/
theorem nextPart_joint {colons : Bool} {ds rest : List Char} {n : Nat}
    (hds : Number (leastDigits colons) 2 ds n) :
    nextPart colons (joint colons ++ (ds ++ rest)) = some (ds ++ rest) := by
  cases colons with
  | false =>
    obtain ⟨c, more, rfl, hc⟩ := Number.eq_cons (k := 1) hds
    simp [nextPart, joint, hc]
  | true => simp [nextPart, joint]

/-- A part of a time is taken whole: it has two digits, or a colon follows. -/
theorem digits?_joint {colons : Bool} {ds : List Char} {n : Nat}
    (hds : Number (leastDigits colons) 2 ds n) (rest : List Char) :
    digits? (leastDigits colons) 2 (ds ++ (joint colons ++ rest))
      = some (n, joint colons ++ rest) := by
  cases colons with
  | false => exact digits?_append hds (.inl (Number.length_eq (k := 2) hds))
  | true => exact digits?_append hds (.inr (noDigit_cons rfl rest))

variable {ts zs : List Char} {clock : Clock} {offset : Option Int}

theorem clock?_eq_some {h m s : Nat} (hh : h < 24) (hm : m < 60) (hs : s < 60) (fs : List Char) :
    clock? h m s fs = some ⟨3600 * h + 60 * m + s, fs⟩ := by
  simp [clock?, hh, hm, hs]

/-- Whether there are colons is seen behind the hours. -/
theorem head?_joint {colons : Bool} {ds rest : List Char} {n : Nat}
    (hds : Number (leastDigits colons) 2 ds n) :
    ((joint colons ++ (ds ++ rest)).head? == some ':') = colons := by
  cases colons with
  | false =>
    obtain ⟨c, more, rfl, hc⟩ := Number.eq_cons (k := 1) hds
    have hcolon : c ≠ ':' := ne_of_isDigit hc rfl
    simp [joint, hcolon]
  | true => rfl

/-- Without colons the hours have two digits. -/
theorem not_short {colons : Bool} {ds : List Char} {n : Nat}
    (hds : Number (leastDigits colons) 2 ds n) (rest : List Char) :
    (!colons && decide ((ds ++ rest).length < rest.length + 2)) = false := by
  cases colons with
  | false =>
    have hlength : ds.length = 2 := Number.length_eq (k := 2) hds
    simp [hlength]
    omega
  | true => rfl

/-- What `time?` reads behind hours and minutes. -/
def behindMinutes (colons : Bool) (hour minute : Nat) (s : List Char) :
    Option (Clock × List Char) :=
  match nextPart colons s with
  | none => do some (← clock? hour minute 0 [], s)
  | some s => do
    let (second, rest) ← digits? (leastDigits colons) 2 s
    match rest with
    | '.' :: after =>
      let fraction := (after.take 18).takeWhile Char.isDigit
      some (← clock? hour minute second fraction, after.drop fraction.length)
    | rest => some (← clock? hour minute second [], rest)

/-- The hours are taken whole, with a colon behind them or with two digits. -/
theorem digits?_hours {colons : Bool} {ds : List Char} {n : Nat}
    (hds : Number (leastDigits colons) 2 ds n) (rest : List Char) :
    digits? 1 2 (ds ++ (joint colons ++ rest)) = some (n, joint colons ++ rest) := by
  have hleast : Number 1 2 ds n := hds.mono (by cases colons <;> decide)
  cases colons with
  | false => exact digits?_append hleast (.inl (Number.length_eq (k := 2) hds))
  | true => exact digits?_append hleast (.inr (noDigit_cons rfl _))

theorem time?_joint {colons : Bool} {hs ms rest : List Char} {h m : Nat}
    (hhs : Number (leastDigits colons) 2 hs h) (hms : Number (leastDigits colons) 2 ms m)
    (htaken : digits? (leastDigits colons) 2 (ms ++ rest) = some (m, rest)) :
    time? (hs ++ (joint colons ++ (ms ++ rest))) = behindMinutes colons h m rest := by
  unfold time?
  rw [digits?_hours hhs, Option.bind_eq_bind, Option.bind_some]
  dsimp only
  rw [head?_joint hms, not_short hhs, nextPart_joint hms, ← leastDigits]
  dsimp only
  rw [if_neg Bool.false_ne_true, htaken]
  rfl

theorem behindMinutes_of_ends (hzs : Ends zs) {h m : Nat} (hh : h < 24) (hm : m < 60)
    (colons : Bool) :
    behindMinutes colons h m zs = some (⟨3600 * h + 60 * m, []⟩, zs) := by
  rw [behindMinutes, nextPart_of_ends hzs, clock?_eq_some hh hm (by decide)]
  rfl

theorem behindMinutes_second (hzs : Ends zs) {colons : Bool} {ss : List Char} {h m s : Nat}
    (hss : Number (leastDigits colons) 2 ss s) (hh : h < 24) (hm : m < 60) (hs : s < 60) :
    behindMinutes colons h m (joint colons ++ (ss ++ zs))
      = some (⟨3600 * h + 60 * m + s, []⟩, zs) := by
  rw [behindMinutes, nextPart_joint hss]
  dsimp only
  rw [digits?_append hss (.inr hzs.noDigit), Option.bind_eq_bind, Option.bind_some]
  dsimp only
  rw [clock?_eq_some hh hm hs]
  cases zs with
  | nil => rfl
  | cons c rest =>
    have hpoint : c ≠ '.' := (hzs c rfl).2.2
    split
    · rename_i heq
      cases heq
      exact absurd rfl hpoint
    · rfl

theorem behindMinutes_fraction (hzs : Ends zs) {colons : Bool} {ss fs : List Char} {h m s : Nat}
    (hss : Number (leastDigits colons) 2 ss s) (hh : h < 24) (hm : m < 60) (hs : s < 60)
    (hfs : Digits fs) (hlength : fs.length ≤ 18) :
    behindMinutes colons h m (joint colons ++ (ss ++ '.' :: (fs ++ zs)))
      = some (⟨3600 * h + 60 * m + s, fs⟩, zs) := by
  have htaken := takeWhile_take_digits hfs hlength (.inr hzs.noDigit)
  rw [behindMinutes, nextPart_joint hss]
  dsimp only
  rw [digits?_append hss (.inr (noDigit_cons rfl _)), Option.bind_eq_bind, Option.bind_some]
  simp [htaken, clock?_eq_some hh hm hs]

/-- A time of day is read off the front of a text that cannot belong to it. -/
theorem time?_of_writes (h : WritesClock ts clock) (hzs : Ends zs) :
    time? (ts ++ zs) = some (clock, zs) := by
  cases h with
  | @hour _ h hhs hh =>
    have hleast : Number 1 2 ts h := hhs.mono (by decide)
    have htaken := digits?_append hleast (.inr hzs.noDigit)
    have hcolon : zs.head? ≠ some ':' := fun hc => (hzs ':' hc).2.1 rfl
    have hlength : ts.length = 2 := hhs.length_eq
    have hclock := clock?_eq_some hh (m := 0) (s := 0) (by decide) (by decide) []
    simp [time?, htaken, hcolon, hlength, nextPart_of_ends hzs, hclock, Nat.add_comm]
  | @minute colons hs ms h m hhs hms hh hm =>
    have htaken : digits? (leastDigits colons) 2 (ms ++ zs) = some (m, zs) :=
      digits?_append hms (.inr hzs.noDigit)
    simpa using (time?_joint hhs hms htaken).trans (behindMinutes_of_ends hzs hh hm colons)
  | @second colons hs ms ss h m s hhs hms hss hh hm hs =>
    have htime := time?_joint hhs hms (digits?_joint hms (ss ++ zs))
    simpa using htime.trans (behindMinutes_second hzs hss hh hm hs)
  | @fraction colons hs ms ss fs h m s hhs hms hss hh hm hs hfs hlength =>
    have htime := time?_joint hhs hms (digits?_joint hms (ss ++ '.' :: (fs ++ zs)))
    simpa using htime.trans (behindMinutes_fraction hzs hss hh hm hs hfs hlength)

/-! ## Offset -/

theorem WritesZone.ends (h : WritesZone zs offset) : Ends zs := by
  have hblank : ∀ {c : Char}, isSpace c = true → c.isDigit = false ∧ c ≠ ':' ∧ c ≠ '.' := by
    intro c hc
    refine ⟨isDigit_of_isSpace hc, ?_, ?_⟩
    · rintro rfl
      cases hc
    · rintro rfl
      cases hc
  -- behind blanks, or in front where there are none, stands `Z` or a sign
  have hbehind : ∀ {bs : List Char} {c : Char} {rest : List Char}, Blanks bs →
      (c.isDigit = false ∧ c ≠ ':' ∧ c ≠ '.') → Ends (bs ++ c :: rest) := by
    intro bs c rest hbs hc d hd
    cases bs with
    | nil => exact (Option.mem_some_iff.mp hd) ▸ hc
    | cons b bs => exact (Option.mem_some_iff.mp hd) ▸ hblank (hbs b List.mem_cons_self)
  have hsign : ∀ {sign : Char} {k : Int}, Sign sign k →
      sign.isDigit = false ∧ sign ≠ ':' ∧ sign ≠ '.' := by
    intro sign k hsign
    cases hsign <;> decide
  cases h with
  | none hbs => exact fun c hc => hblank (hbs c (List.mem_of_mem_head? hc))
  | utc hbs _ => exact hbehind hbs (by decide)
  | hours hbs hsigned _ _ => exact hbehind hbs (hsign hsigned)
  | minutes hbs hsigned _ _ _ _ _ => exact hbehind hbs (hsign hsigned)

theorem offset?_hours {hs : List Char} {h : Nat} (hhs : Number 1 2 hs h) (hh : h < 24) :
    offset? hs = some (3600 * (h : Int), []) := by
  simp [offset?, hhs.taken_end, hh]

theorem offset?_minutes {colons : Bool} {hs ms bs : List Char} {h m : Nat}
    (hhs : Number (leastDigits colons) 2 hs h) (hms : Number 1 2 ms m) (hh : h < 24) (hm : m < 60)
    (hbs : Blanks bs) :
    offset? (hs ++ (joint colons ++ (ms ++ bs))) = some (3600 * (h : Int) + 60 * m, bs) := by
  have hhours := digits?_hours hhs (ms ++ bs)
  have hminutes := digits?_append hms (.inr (noDigit_blanks hbs))
  have hjoint : (joint colons ++ (ms ++ bs)).isEmpty = false ∧
      (if (joint colons ++ (ms ++ bs)).head? == some ':' then (joint colons ++ (ms ++ bs)).drop 1
        else joint colons ++ (ms ++ bs)) = ms ++ bs := by
    obtain ⟨c, more, rfl, hc⟩ := hms.eq_cons
    have hcolon : c ≠ ':' := ne_of_isDigit hc rfl
    cases colons <;> simp [joint, hcolon]
  unfold offset?
  rw [hhours, Option.bind_eq_bind, Option.bind_some]
  dsimp only
  rw [hjoint.1, hjoint.2, if_neg Bool.false_ne_true, hminutes]
  simp [hh, hm]

theorem Sign.isSpace {sign : Char} {k : Int} (h : Sign sign k) : isSpace sign = false := by
  cases h <;> rfl

theorem zone?_sign {bs rest bs' : List Char} {sign : Char} {k n : Int} (hbs : Blanks bs)
    (hsign : Sign sign k) (h : offset? rest = some (n, bs')) (hbs' : Blanks bs') :
    zone? (bs ++ sign :: rest) = some (some (k * n)) := by
  have hall : bs'.all isSpace = true := List.all_eq_true.mpr hbs'
  rw [zone?, dropWhile_blanks hbs rest hsign.isSpace]
  cases hsign with
  | ahead =>
    show ((offset? rest).map fun p => (some p.1, p.2)).bind
      (fun p => if p.2.all isSpace then some p.1 else none) = _
    rw [h, Int.one_mul]
    show (if bs'.all isSpace = true then some (some n) else none) = _
    rw [if_pos hall]
  | behind =>
    show ((offset? rest).map fun p => (some (-p.1), p.2)).bind
      (fun p => if p.2.all isSpace then some p.1 else none) = _
    rw [h, Int.neg_one_mul]
    show (if bs'.all isSpace = true then some (some (-n)) else none) = _
    rw [if_pos hall]

theorem zone?_of_writes (h : WritesZone zs offset) : zone? zs = some offset := by
  cases h with
  | none hbs =>
    have hbare : zs.dropWhile isSpace = [] := List.dropWhile_eq_nil_iff.mpr hbs
    rw [zone?, hbare]
    rfl
  | @utc bs bs' hbs hbs' =>
    have hall : bs'.all isSpace = true := List.all_eq_true.mpr hbs'
    rw [zone?, dropWhile_blanks (c := 'Z') hbs bs' rfl]
    show (if bs'.all isSpace = true then some (some 0) else none) = _
    rw [if_pos hall]
  | hours hbs hsign hhs hh => exact zone?_sign hbs hsign (offset?_hours hhs hh) nofun
  | minutes hbs hsign hhs hms hh hm hbs' =>
    exact zone?_sign hbs hsign (offset?_minutes hhs hms hh hm hbs') hbs'

/-! ## Whole text -/

theorem isValid_january (y : Int) : (Civil.mk y 1 1).isValid = true := rfl

/-- What is written in the grammar is read as what was written. -/
theorem read?_of_writes {s : List Char} {r : Reading} (h : Writes s r) : read? s = some r := by
  cases h with
  | @year bs ys y hbs hys =>
    have hyear := year?_append hbs hys []
    rw [List.append_nil] at hyear
    simp [read?, hyear, monthDay?, isValid_january]
  | @month bs ys ms mark y m hbs hys hmark hms hvalid =>
    have hyear := year?_append hbs hys (mark :: ms)
    simp [read?, hyear, monthDay?_month hmark hms, hvalid]
  | @day bs ds civil hbs hds hvalid =>
    obtain ⟨more, hyear, hday⟩ := hds.taken hbs noDigit_nil
    rw [List.append_nil] at hyear
    simp [read?, hyear, hday, hvalid]
  | @time bs ds ts zs mark civil clock offset hbs hds hvalid hmark hclock hzone =>
    have hdigit : mark.isDigit = false := by rcases hmark with rfl | rfl <;> rfl
    obtain ⟨more, hyear, hday⟩ := hds.taken hbs (noDigit_cons hdigit (ts ++ zs))
    have htime := time?_of_writes hclock hzone.ends
    have hzone := zone?_of_writes hzone
    simp [read?, hyear, hday, hvalid, hmark, htime, hzone]

end Standard
end Timestamp
end EventQuery
