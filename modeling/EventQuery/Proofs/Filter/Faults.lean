import EventQuery.Proofs.Failure.Answer
import EventQuery.Proofs.Value.Plain

/-!
# EventQuery.Proofs.Filter.Faults

Filter values that are neither used nor refused. A value comes into the kind of its column or is
refused, unless it is a time in no year of the calendar, an integer that no double holds, or holds
an integer with too many digits for the text that it would be shown in (`Breaks`). A filter comes to
an answer for every row from the store, unless one of its two sides is a date or a time and one of
them lies in no year of the calendar (`Clashes`). `reads_or_refuses_values_iff` says so of both.
-/

namespace EventQuery

open Outcome

namespace Filter

/-! ## Values of filters -/

/-- What becomes of a value that does not come into a kind and is not refused. -/
inductive Breaks (v : Value) : ColumnKind → Fault → Prop where
  | year : v.OutOfYears → Breaks v .timestamp .yearOutOfRange
  | double : v.BeyondDouble → Breaks v .number .beyondDouble
  | digits {kind : ColumnKind} : v.isShowable = false → kind ≠ .other →
      (∀ n, v = .int n → kind ≠ .number) → Breaks v kind .numeralTooLong

variable {column : String} {v : Value} {cause : Fault}

theorem refuse_eq_fault_iff {wanted : String} :
    refuse column wanted v = faulty cause ↔ cause = .numeralTooLong ∧ v.isShowable = false := by
  unfold refuse
  cases v.isShowable with
  | true => simp [complain, faulty]
  | false => exact faulty_eq_faulty_iff.trans (and_iff_left rfl).symm

theorem toTimestamp_eq_fault_iff :
    toTimestamp column v = faulty cause ↔ Breaks v .timestamp cause := by
  unfold toTimestamp
  constructor
  · intro h
    split at h
    · rename_i e he
      obtain ⟨rfl, hyears⟩ := Value.utc?_eq_error_iff.mp he
      cases h
      exact .year hyears
    · exact absurd h ok_ne_faulty
    · obtain ⟨rfl, hlong⟩ := refuse_eq_fault_iff.mp h
      exact .digits hlong nofun nofun
  · intro h
    cases h with
    | year hyears =>
      rw [Value.utc?_eq_error_iff.mpr ⟨rfl, hyears⟩]
      rfl
    | digits hlong _ _ =>
      rw [Value.utc?, Value.moment?_of_not_isShowable hlong]
      exact refuse_eq_fault_iff.mpr ⟨rfl, hlong⟩

theorem breaks_number_iff (hint : ∀ n, v ≠ .int n) :
    Breaks v .number cause ↔ cause = .numeralTooLong ∧ v.isShowable = false := by
  constructor
  · intro h
    cases h with
    | double hbeyond =>
      obtain ⟨n, hn, _⟩ := hbeyond
      exact absurd hn (hint n)
    | digits hlong _ _ => exact ⟨rfl, hlong⟩
  · rintro ⟨rfl, hlong⟩
    exact .digits hlong nofun fun n hn => absurd hn (hint n)

theorem toNumber_eq_fault_iff : toNumber column v = faulty cause ↔ Breaks v .number cause := by
  -- by the cases of the definition, so that no double is computed
  fun_cases toNumber column v with
  | case1 n x hx =>
    refine iff_of_false ok_ne_faulty fun h => ?_
    cases h with
    | double hbeyond =>
      obtain ⟨m, hm, hbeyond⟩ := hbeyond
      cases hm
      rw [Binary64.ofInt?_eq_none_iff.mpr hbeyond] at hx
      cases hx
    | digits _ _ hint => exact absurd rfl (hint n rfl)
  | case2 n hn =>
    have hbeyond : (Value.int n).BeyondDouble := ⟨n, rfl, Binary64.ofInt?_eq_none_iff.mp hn⟩
    constructor
    · intro h
      cases h
      exact .double hbeyond
    · intro h
      cases h with
      | double _ => rfl
      | digits _ _ hint => exact absurd rfl (hint n rfl)
  | case3 x | case4 s x hx =>
    refine iff_of_false ok_ne_faulty fun h => ?_
    obtain ⟨_, hlong⟩ := (breaks_number_iff fun n hn => by cases hn).mp h
    cases hlong
  | case5 s hs => exact refuse_eq_fault_iff.trans (breaks_number_iff fun n hn => by cases hn).symm
  | case6 =>
    rename_i hint _ _
    exact refuse_eq_fault_iff.trans (breaks_number_iff hint).symm

/-- No year and no double is involved where a text or a boolean is wanted. -/
theorem breaks_digits_iff {kind : ColumnKind} (hkind : kind = .text ∨ kind = .boolean) :
    Breaks v kind cause ↔ cause = .numeralTooLong ∧ v.isShowable = false := by
  constructor
  · intro h
    cases h with
    | year | double => rcases hkind with hkind | hkind <;> cases hkind
    | digits hlong _ _ => exact ⟨rfl, hlong⟩
  · rintro ⟨rfl, hlong⟩
    rcases hkind with rfl | rfl <;> exact .digits hlong nofun nofun

theorem toText_eq_fault_iff : toText column v = faulty cause ↔ Breaks v .text cause := by
  refine Iff.trans ?_ (breaks_digits_iff (.inl rfl)).symm
  cases v with
  | text s => exact iff_of_false ok_ne_faulty (by simp [Value.isShowable])
  | bool b => exact iff_of_false ok_ne_faulty (by simp [Value.isShowable])
  | float x => exact iff_of_false ok_ne_faulty (by simp [Value.isShowable])
  | int n =>
    simp only [toText]
    cases (Value.int n).isShowable with
    | true => simp [faulty]
    | false => exact faulty_eq_faulty_iff.trans (and_iff_left rfl).symm
  | _ => exact refuse_eq_fault_iff

theorem toBoolean_eq_fault_iff : toBoolean column v = faulty cause ↔ Breaks v .boolean cause := by
  refine Iff.trans ?_ (breaks_digits_iff (.inr rfl)).symm
  -- what stands for a boolean can be shown: zero and one have one digit
  fun_cases toBoolean column v with
  | case1 | case2 | case3 | case8 | case9 =>
    exact iff_of_false ok_ne_faulty (by simp [Value.isShowable])
  | case5 | case6 => exact iff_of_false ok_ne_faulty fun h => absurd h.2 (by decide)
  | case4 | case7 | case10 | case11 => exact refuse_eq_fault_iff

theorem coerceValue_eq_fault_iff {kind : ColumnKind} :
    coerceValue column v kind = faulty cause ↔ Breaks v kind cause := by
  unfold coerceValue
  split
  · rename_i hnull
    refine iff_of_false ok_ne_faulty fun h => ?_
    cases v with
    | null =>
      cases h with
      | year hyears =>
        obtain ⟨t, ht, _⟩ := hyears
        cases ht
      | double hbeyond =>
        obtain ⟨n, hn, _⟩ := hbeyond
        cases hn
      | digits hlong _ _ => cases hlong
    | _ => cases hnull
  · cases kind with
    | other =>
      refine iff_of_false ok_ne_faulty fun h => ?_
      cases h with
      | digits _ hother _ => exact hother rfl
    | timestamp => exact toTimestamp_eq_fault_iff
    | number => exact toNumber_eq_fault_iff
    | text => exact toText_eq_fault_iff
    | boolean => exact toBoolean_eq_fault_iff

/-! ## Rows -/

/-- A filter and the value of its column in a row, one of them a date or a time and one of them in
no year of the calendar. -/
def Clashes (f : Filter) (row : Record) : Prop :=
  ∃ u, Record.find? row f.property = some u ∧ (isTime u = true ∨ isTime f.value = true) ∧
    (u.OutOfYears ∨ f.value.OutOfYears)

variable {left right l r : Value} {op : Operator} {e : Failure}

theorem alignTimes_eq_error_iff :
    alignTimes left right = .error e ↔
      e = .fault .yearOutOfRange ∧ (left.OutOfYears ∨ right.OutOfYears) := by
  rw [and_or_left, ← Value.utc?_eq_error_iff, ← Value.utc?_eq_error_iff]
  unfold alignTimes
  cases hleft : left.utc? with
  | error e' =>
    cases hright : right.utc? with
    | ok u => simp
    | error e'' =>
      -- both sides fail in the one way there is
      obtain ⟨rfl, _⟩ := Value.utc?_eq_error_iff.mp hleft
      obtain ⟨rfl, _⟩ := Value.utc?_eq_error_iff.mp hright
      simp
  | ok t =>
    cases right.utc? with
    | error e'' => simp
    | ok u => cases t <;> cases u <;> simp

theorem align_eq_error_iff :
    align left right = .error e ↔ e = .fault .yearOutOfRange ∧
      (isTime left = true ∨ isTime right = true) ∧ (left.OutOfYears ∨ right.OutOfYears) := by
  unfold align
  split
  · rename_i htime
    rw [Bool.or_eq_true] at htime
    rw [alignTimes_eq_error_iff, and_iff_right htime]
  · rename_i htime
    rw [Bool.or_eq_true] at htime
    refine iff_of_false ?_ fun h => htime h.2.1
    split <;> nofun

theorem isPlain_numberIn (s : String) : (numberIn s).isPlain = true := by
  unfold numberIn
  split <;> rfl

theorem decode_numberIn (s : String) : Client.decode (numberIn s) = numberIn s := by
  unfold numberIn
  split <;> rfl

/-- What two sides that are brought together can become: two times, or themselves, where a text on
one side may become the number that it writes. -/
inductive Sides (left right : Value) : Value → Value → Prop where
  | times {t u : DateTime} : Sides left right (.datetime t) (.datetime u)
  | same : Sides left right left right
  | leftNumber {s : String} : left = .text s → Sides left right (numberIn s) right
  | rightNumber {s : String} : right = .text s → Sides left right left (numberIn s)

theorem sides_of_align (h : align left right = .ok (l, r)) : Sides left right l r := by
  unfold align at h
  split at h
  · unfold alignTimes at h
    split at h
    · cases h
    · cases h
    · cases h
      exact .times
    · cases h
      exact .same
  · split at h
    · cases h
      split
      · exact .leftNumber rfl
      · exact .same
    · cases h
      split
      · exact .rightNumber rfl
      · exact .same
    · cases h
      exact .same

/-- Two sides brought together are as comparable as they were. -/
theorem align_decode_eq_ok (hright : right.isPlain = true)
    (h : align (Client.decode left) right = .ok (l, r)) :
    (∃ u, l = Client.decode u) ∧ r.isPlain = true := by
  cases sides_of_align h with
  | times => exact ⟨⟨.datetime _, rfl⟩, rfl⟩
  | same => exact ⟨⟨left, rfl⟩, hright⟩
  | leftNumber => exact ⟨⟨_, (decode_numberIn _).symm⟩, hright⟩
  | rightNumber => exact ⟨⟨left, rfl⟩, isPlain_numberIn _⟩

/-- What a filter comes to for a value from the store. -/
theorem compares_decode (op : Operator) (left : Value) (hright : right.isPlain = true) :
    (∃ e, align (Client.decode left) right = .error e ∧
      compares op (Client.decode left) right = .error e) ∨
    ∃ l r, align (Client.decode left) right = .ok (l, r) ∧
      compares op (Client.decode left) right = .ok
        (match op.holds l r with
          | .ok b => b
          | .error _ => op == .ne) := by
  unfold compares
  cases halign : align (Client.decode left) right with
  | error e => exact .inl ⟨e, rfl, rfl⟩
  | ok sides =>
    obtain ⟨l, r⟩ := sides
    obtain ⟨⟨u, rfl⟩, hr⟩ := align_decode_eq_ok hright halign
    have hdefined := Value.holds_decode_ne op u hr
    refine .inr ⟨_, r, rfl, ?_⟩
    dsimp only
    cases hholds : op.holds (Client.decode u) r with
    | ok b => rfl
    | error m =>
      cases m with
      | undefinedDecimal => exact absurd hholds hdefined
      | _ => rfl

theorem compares_eq_error_iff (hright : right.isPlain = true) :
    compares op (Client.decode left) right = .error e ↔
      align (Client.decode left) right = .error e := by
  rcases compares_decode op left hright with ⟨e', halign, heq⟩ | ⟨l, r, halign, heq⟩
  · rw [heq, halign]
    simp
  · rw [heq, halign]
    simp

/-- Values that are neither equal nor in an order are only told apart. -/
theorem holds_of_unordered {m : Mismatch} (hsame : l.same r = false)
    (horder : l.compare? r = .error m) :
    (match op.holds l r with
      | .ok b => b
      | .error _ => op == .ne) = (op == .ne) := by
  cases op with
  | eq => simp [Operator.holds, hsame]
  | ne => simp [Operator.holds, hsame]
  | _ => simp [Operator.holds, horder]

variable {f : Filter} {raw : Record}

theorem accepts_decode_eq_error_iff (hf : f.value.isPlain = true) :
    accepts f (Client.decodeRecord raw) = .error e ↔
      e = .fault .yearOutOfRange ∧ Clashes f (Client.decodeRecord raw) := by
  unfold accepts Clashes
  rw [Client.find?_decodeRecord]
  cases Record.find? raw f.property with
  | none => simp
  | some u =>
    rw [Option.map_some]
    dsimp only
    rw [compares_eq_error_iff hf, align_eq_error_iff]
    simp

theorem accepts_of_unordered {u : Value} {m : Mismatch} (hf : f.value.isPlain = true)
    (hu : Record.find? (Client.decodeRecord raw) f.property = some u)
    (halign : align u f.value = .ok (l, r)) (hsame : l.same r = false)
    (horder : l.compare? r = .error m) :
    accepts f (Client.decodeRecord raw) = .ok (f.operator == .ne) := by
  rw [accepts, hu]
  rw [Client.find?_decodeRecord] at hu
  obtain ⟨u', _, rfl⟩ := Option.map_eq_some_iff.mp hu
  dsimp only
  rcases compares_decode f.operator u' hf with
    ⟨e, hfail, _⟩ | ⟨l', r', hsides, heq⟩
  · rw [halign] at hfail
    cases hfail
  · rw [halign] at hsides
    cases hsides
    rw [heq, holds_of_unordered hsame horder]

theorem reads_or_refuses_values_iff (column : String) (v : Value) (kind : ColumnKind) (f : Filter)
    (raw : Record) (hf : f.value.isPlain = true) :
    ((coerceValue column v kind).Settles ↔ ∀ cause, ¬Breaks v kind cause) ∧
      (∀ cause, coerceValue column v kind = faulty cause ↔ Breaks v kind cause) ∧
      ((∃ b, accepts f (Client.decodeRecord raw) = .ok b) ↔
        ¬Clashes f (Client.decodeRecord raw)) ∧
      (∀ e, accepts f (Client.decodeRecord raw) = .error e ↔
        e = .fault .yearOutOfRange ∧ Clashes f (Client.decodeRecord raw)) ∧
      (∀ u l r m, Record.find? (Client.decodeRecord raw) f.property = some u →
        align u f.value = .ok (l, r) → l.same r = false → l.compare? r = .error m →
        accepts f (Client.decodeRecord raw) = .ok (f.operator == .ne)) := by
  refine ⟨?_, fun cause => coerceValue_eq_fault_iff, ?_,
    fun e => accepts_decode_eq_error_iff hf, fun u l r m hu halign hsame horder =>
      accepts_of_unordered hf hu halign hsame horder⟩
  · rw [(failsAmong_coerceValue column v kind).settles_iff]
    exact forall_congr' fun cause => not_congr coerceValue_eq_fault_iff
  · have hfault := @accepts_decode_eq_error_iff (.fault .yearOutOfRange) f raw hf
    rw [and_iff_right rfl] at hfault
    rw [← hfault]
    cases haccepts : accepts f (Client.decodeRecord raw) with
    | ok b => simp
    | error e =>
      obtain ⟨rfl, _⟩ := (accepts_decode_eq_error_iff hf).mp haccepts
      simp

/-- A voltage that is to differ from a word. -/
def notOff : Filter := ⟨"voltage", .ne, .text "off"⟩

theorem reads_or_refuses_values_notOff :
    notOff.value.isPlain = true ∧ (coerceValue "voltage" notOff.value .number).Settles ∧
      (∃ b, accepts notOff (Client.decodeRecord [("voltage", .int 12)]) = .ok b) ∧
      accepts notOff (Client.decodeRecord [("voltage", .int 12)]) = .ok true := by
  obtain ⟨hsettles, _, hanswers, _, hunordered⟩ :=
    reads_or_refuses_values_iff "voltage" notOff.value .number notOff [("voltage", .int 12)] rfl
  refine ⟨rfl, hsettles.mpr fun cause h => ?_, hanswers.mpr ?_, ?_⟩
  · obtain ⟨_, hlong⟩ := (breaks_number_iff (by nofun)).mp h
    cases hlong
  · rintro ⟨u, hu, htime, _⟩
    cases hu
    revert htime
    decide
  · have hword : Numeral.real? "off" = none := by decide +kernel
    have halign : align (.int 12) notOff.value = .ok (.int 12, numberIn "off") := rfl
    rw [numberIn, hword] at halign
    exact hunordered (.int 12) _ _ (.kinds "int" "str") rfl halign rfl rfl

/-- Events at the first hour of year one, on a clock that is ahead of UTC. -/
def atFirstHour : Filter :=
  ⟨Name.timestampColumn, .eq, .text "0001-01-01T00:00:00+05:00"⟩

theorem not_reads_greatVoltage :
    coerceValue "voltage" (.int (tenTo 400)) .number = faulty .beyondDouble ∧
      ¬(coerceValue "voltage" (.int (tenTo 400)) .number).Settles ∧
      accepts atFirstHour [(Name.timestampColumn, .datetime (.utc 0))] =
        .error (.fault .yearOutOfRange) := by
  have hfault : coerceValue "voltage" (.int (tenTo 400)) .number = faulty .beyondDouble :=
    coerceValue_eq_fault_iff.mpr (.double ⟨tenTo 400, rfl, by decide +kernel⟩)
  exact ⟨hfault, fun h => h.not_faulty hfault, by decide +kernel⟩

end Filter
end EventQuery
