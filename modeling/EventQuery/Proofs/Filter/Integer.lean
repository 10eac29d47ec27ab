import EventQuery.Proofs.Binary64.Integer
import EventQuery.Proofs.Engine.Conditions
import EventQuery.Proofs.Filter.Coherence
import EventQuery.Proofs.Filter.Passage
import EventQuery.Proofs.Text.Numeral

/-!
# EventQuery.Proofs.Filter.Integer

Integers in filters on columns of numbers. A filter on such a column compares with a double, so an
integer is rounded first: `coerceValue_of_gives`. What follows is exact: the statement binds this
double, and a row is compared with it as the number that it is. So a filter means the integer it
was given wherever a double has that value (`compares_with_nearest`), and from `2 ^ 53` on there are
integers that none has (`not_exact_oddVoltage`).
-/

namespace EventQuery
namespace Filter

open Binary64 Numeral

variable {column : String} {v : Value} {n : Int}

/-- How a filter gives an integer: as a number in JSON in the range of doubles, with or without a
point, or in digits. -/
inductive Gives : Value → Int → Prop where
  | int {n : Int} : n.natAbs < limit → Gives (.int n) n
  | float {x : Binary64} {n : Int} : x.quantity = .finite n → Gives (.float x) n
  | text {s : String} {n : Int} : WritesInteger s n → Gives (.text s) n

theorem coerceValue_number (column : String) (h : v.isNull = false) :
    coerceValue column v .number = toNumber column v := by
  rw [coerceValue, h, if_neg Bool.false_ne_true]

theorem toNumber_int (column : String) {x : Binary64} (hv : v = .int n) (hx : ofInt? n = some x) :
    toNumber column v = .ok (.float x) := by
  -- by the cases of the definition, so that no double is computed
  fun_cases toNumber column v with
  | case1 m y hy =>
    cases hv
    rw [hx] at hy
    cases hy
    rfl
  | case2 m hnone =>
    cases hv
    rw [hx] at hnone
    cases hnone
  | case3 | case4 | case5 => cases hv
  | case6 _ _ hint => exact absurd hv (hint n)

theorem toNumber_text (column : String) {s : String} {x : Binary64} (hv : v = .text s)
    (hx : real? s = some x) : toNumber column v = .ok (.float x) := by
  fun_cases toNumber column v with
  | case1 | case2 | case3 => cases hv
  | case4 t y hy =>
    cases hv
    rw [hx] at hy
    cases hy
    rfl
  | case5 t hnone =>
    cases hv
    rw [hx] at hnone
    cases hnone
  | case6 _ _ _ _ htext => exact absurd hv (htext s)

/-- An integer becomes the double that it is rounded to. -/
theorem coerceValue_of_gives (column : String) (h : Gives v n) :
    ∃ x, coerceValue column v .number = .ok (.float x) ∧ x.quantity = (ofInt n).quantity := by
  cases h with
  | int hn =>
    have hnull : (Value.int n).isNull = false := rfl
    have hread := toNumber_int column rfl (ofInt?_eq_some hn)
    exact ⟨ofInt n, (coerceValue_number column hnull).trans hread, rfl⟩
  | @float x n hx =>
    have hnull : (Value.float x).isNull = false := rfl
    have hvalue := quantity_ofInt_eq_iff.mpr ⟨x, hx⟩
    exact ⟨x, coerceValue_number column hnull, hx.trans hvalue.symm⟩
  | @text s n hs =>
    have hnull : (Value.text s).isNull = false := rfl
    obtain ⟨negative, hsign, hreal⟩ := real?_of_writesInteger hs
    have hread := toNumber_text column rfl hreal
    exact ⟨_, (coerceValue_number column hnull).trans hread, quantity_ofDecimal hsign⟩

theorem isNaN_of_quantity_ofInt {x : Binary64} (hx : x.quantity = (ofInt n).quantity) :
    x.isNaN = false := by
  have hdefined : (ofInt n).quantity ≠ .undefined := quantity_ne_undefined rfl
  cases x with
  | nan => exact absurd hx.symm hdefined
  | signed negative place => rfl

theorem toRat_of_quantity_ofInt {x : Binary64} (hx : x.quantity = (ofInt n).quantity)
    (hn : n.natAbs < limit) : x.isFinite = true ∧ x.toRat = approx n := by
  rw [quantity_of_isFinite (isFinite_ofInt_iff.mpr hn)] at hx
  exact quantity_of_finite hx

/-! ## Statements -/

theorem predicate_singleton {f : Filter} (h : Name.isProperty f.property = true) :
    predicate [f] = .ok (some (.comparisons [f])) := by
  have hcolumns : ∀ g ∈ [f], Name.isProperty g.property = true := by simpa using h
  rw [predicate, if_neg (by simp), checkColumns_of_isProperty hcolumns]
  rfl

theorem text_singleton (bound : Nat) (f : Filter) :
    (Predicate.comparisons [f]).text bound = "\"" ++ f.property ++ "\" " ++ f.operator.sql ++ " $"
      ++ toString (bound + 1) ++ f.value.cast := by
  rw [← comparisonText_eq, Predicate.text, Predicate.comparisonTexts, Predicate.comparisonTexts,
    String.intercalate_singleton]

/-! ## Rows -/

variable {row : Record} {a : Int} {x : Binary64}

theorem relates_intCast (op : Operator) (a n : Int) :
    op.Relates (a : Rat) (n : Rat) ↔ op.Relates a n := by
  cases op <;> simp [Operator.Relates]

/-- A row that holds an integer is compared by exact values. -/
theorem accepts_int_float (hrow : Record.find? row column = some (.int a)) (hx : x.isNaN = false)
    (op : Operator) : accepts ⟨column, op, .float x⟩ row =
      .ok (ColumnKind.number.compares op (.int a) (.float x)) := by
  obtain ⟨b, hb⟩ := has_float hx
  rw [accepts, hrow]
  exact compares_of_key (k := .number) rfl hb op

theorem accepts_of_quantity {q : Rat} (hrow : Record.find? row column = some (.int a))
    (hx : x.quantity = .finite q) (op : Operator) :
    accepts ⟨column, op, .float x⟩ row = .ok (decide (op.Relates (a : Rat) q)) := by
  have horder : (Quantity.finite a).compare? x.quantity = some (cmp (a : Rat) q) := by
    rw [hx]
    rfl
  have hstands := Value.stands_of_quantity (u := .int a) (v := .float x) rfl rfl horder
  have halign : align (.int a) (.float x) = .ok (.int a, .float x) := rfl
  rw [accepts_eq_compares hrow, compares_of_stands halign hstands, Operator.accepts_cmp]

/-- An integer in a filter on a column of numbers is the nearest double, in the statement and beside
rows; it is the integer itself where a double has that value. -/
theorem compares_with_nearest (column : String) (v : Value) (n : Int) (h : Gives v n) :
    ∃ x, coerceValue column v .number = .ok (.float x) ∧ x.quantity = (ofInt n).quantity ∧
      (n.natAbs < limit → x.isFinite = true ∧
        ∀ y : Binary64, y.isFinite = true → |x.toRat - n| ≤ |y.toRat - n|) ∧
      (limit ≤ n.natAbs → x.quantity = .infinite (decide (n < 0))) ∧
      (x.quantity = .finite n ↔ ∃ y : Binary64, y.quantity = .finite n) ∧
      (n.natAbs ≤ twoTo 53 → x.quantity = .finite n) ∧
      (Name.isProperty column = true → ∀ op, ∃ p,
        predicate [⟨column, op, .float x⟩] = .ok (some p) ∧ p.values = [.float x] ∧
        ∀ bound, p.text bound =
          "\"" ++ column ++ "\" " ++ op.sql ++ " $" ++ toString (bound + 1) ++ "::float8") ∧
      ∀ op row a, Record.find? row column = some (.int a) →
        accepts ⟨column, op, .float x⟩ row =
          .ok (ColumnKind.number.compares op (.int a) (.float x)) ∧
        (x.quantity = .finite n →
          accepts ⟨column, op, .float x⟩ row = .ok (decide (op.Relates a n))) := by
  obtain ⟨x, hcoerce, hx⟩ := coerceValue_of_gives column h
  have hnan := isNaN_of_quantity_ofInt hx
  refine ⟨x, hcoerce, hx, fun hn => ?_, fun hn => ?_, ?_, fun hn => ?_, fun hcolumn op => ?_,
    fun op row a hrow => ⟨accepts_int_float hrow hnan op, fun hexact => ?_⟩⟩
  · obtain ⟨hfinite, hvalue⟩ := toRat_of_quantity_ofInt hx hn
    refine ⟨hfinite, fun y hy => ?_⟩
    rw [hvalue]
    exact abs_approx_sub_le_abs (by rw [abs_intCast]; exact_mod_cast hn) hy
  · rw [hx]
    exact quantity_ofInt_of_limit_le hn
  · rw [hx]
    exact quantity_ofInt_eq_iff
  · rw [hx, quantity_of_isFinite (isFinite_ofInt hn), toRat_ofInt hn]
  · exact ⟨_, predicate_singleton hcolumn, rfl, fun bound => text_singleton bound _⟩
  · rw [accepts_of_quantity hrow hexact]
    exact congrArg Except.ok (decide_eq_decide.mpr (relates_intCast op a n))

/-- A power of two in digits is itself, and the integer after it is another. -/
theorem compares_with_nearest_digits :
    Gives (.text "+9007199254740992") 9007199254740992 ∧
      ∃ x, coerceValue "voltage" (.text "+9007199254740992") .number = .ok (.float x) ∧
        x.quantity = .finite 9007199254740992 ∧
        accepts ⟨"voltage", .eq, .float x⟩ [("voltage", .int 9007199254740993)] = .ok false := by
  have hdigits : ∀ c ∈ "9007199254740992".toList, c.isDigit = true :=
    List.all_eq_true.mp (by decide)
  have hgives : Gives (.text "+9007199254740992") 9007199254740992 :=
    .text ⟨[], ['+'], "9007199254740992".toList, [], false, rfl, nofun, nofun, .plus, hdigits,
      by decide, by decide⟩
  obtain ⟨x, hcoerce, -, -, -, -, hexact, -, hrows⟩ :=
    compares_with_nearest "voltage" (.text "+9007199254740992") 9007199254740992 hgives
  have hvalue := hexact (by decide +kernel)
  have hrow := (hrows .eq [("voltage", .int 9007199254740993)] 9007199254740993 rfl).2 hvalue
  exact ⟨hgives, x, hcoerce, hvalue, hrow⟩

/-- The first integer that is no double. -/
def oddVoltage : Int := 9007199254740993

theorem quantity_oddVoltage : (ofInt oddVoltage).quantity = .finite 9007199254740992 := by
  decide +kernel

/-- It is neither refused nor kept: a filter for it selects the integer before instead. -/
theorem not_exact_oddVoltage :
    ¬((∃ why, coerceValue "voltage" (.int oddVoltage) .number = complain why) ∨
        ∃ w, coerceValue "voltage" (.int oddVoltage) .number = .ok w ∧
          w.quantity? = some (.finite oddVoltage)) ∧
      ∃ x, coerceValue "voltage" (.int oddVoltage) .number = .ok (.float x) ∧
        accepts ⟨"voltage", .eq, .float x⟩ [("voltage", .int oddVoltage)] = .ok false ∧
        accepts ⟨"voltage", .eq, .float x⟩ [("voltage", .int (oddVoltage - 1))] = .ok true := by
  have hsmall : oddVoltage.natAbs < limit := by decide +kernel
  obtain ⟨x, hcoerce, hx⟩ := coerceValue_of_gives "voltage" (.int hsmall)
  rw [quantity_oddVoltage] at hx
  have hrow (a : Int) : accepts ⟨"voltage", .eq, .float x⟩ [("voltage", .int a)] =
      .ok (decide (Operator.eq.Relates (a : Rat) 9007199254740992)) :=
    accepts_of_quantity rfl hx .eq
  refine ⟨?_, x, hcoerce, (hrow _).trans (congrArg Except.ok (by decide)),
    (hrow _).trans (congrArg Except.ok (by decide))⟩
  rintro (⟨why, hrefused⟩ | ⟨w, hkept, hexact⟩)
  · rw [hcoerce] at hrefused
    cases hrefused
  · rw [hcoerce] at hkept
    cases hkept
    have hvalue : x.quantity = .finite oddVoltage := Option.some.inj hexact
    rw [hx] at hvalue
    revert hvalue
    decide

end Filter
end EventQuery
