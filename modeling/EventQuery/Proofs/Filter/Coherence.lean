import EventQuery.Proofs.Filter.Faults
import EventQuery.Proofs.Value.Comparison

/-!
# EventQuery.Proofs.Filter.Coherence

The six comparisons of filters agree with each other, whatever the two sides are. Bringing the sides
together does the same to them either way round (`align_swap`), and so a comparison and its mirror
image give the same answer (`compares_mirrored`). A comparison by order holds exactly where the
sides stand in an order that it accepts (`compares_order_iff`), and one order excludes the others.
For sides that are `Comparable` there is always one (`Comparable.stands`).
-/

namespace EventQuery

namespace Operator

variable {x y : Value} {op : Operator}

/-- The comparison that says the same with the two sides the other way round. -/
def mirrored : Operator → Operator
  | eq => eq
  | gt => lt
  | gte => lte
  | lt => gt
  | lte => gte
  | ne => ne

theorem accepts_mirrored (op : Operator) (o : Ordering) :
    op.mirrored.accepts o.swap = op.accepts o := by
  cases op <;> cases o <;> rfl

/-- A comparison by order, not by equality. -/
def isOrder : Operator → Bool
  | eq | ne => false
  | _ => true

theorem holds_of_isOrder (h : op.isOrder = true) : op.holds x y =
    match x.compare? y with
    | .error m => .error m
    | .ok none => .ok false
    | .ok (some o) => .ok (op.accepts o) := by
  cases op <;> first | rfl | cases h

theorem holds_mirrored (op : Operator) (hx : x.hasDistinctNames = true)
    (hy : y.hasDistinctNames = true) : op.mirrored.holds y x = (op.holds x y).mapError (·.swap) := by
  have horder (h : op.isOrder = true) (h' : op.mirrored.isOrder = true) :
      op.mirrored.holds y x = (op.holds x y).mapError (·.swap) := by
    rw [holds_of_isOrder h, holds_of_isOrder h', Value.compare?_swap hx hy]
    rcases x.compare? y with m | _ | o
    · rfl
    · rfl
    · exact congrArg Except.ok (accepts_mirrored op o)
  cases op with
  | eq => exact congrArg Except.ok (Value.same_comm_of_names hy hx)
  | ne => exact congrArg (fun same => Except.ok (!same)) (Value.same_comm_of_names hy hx)
  | _ => exact horder rfl rfl

end Operator

namespace Filter

variable {a b l r : Value} {op : Operator} {o : Ordering}

/-! ## The sides the other way round -/

theorem alignTimes_swap (a b : Value) : alignTimes b a = (alignTimes a b).map Prod.swap := by
  unfold alignTimes
  cases ha : a.utc? with
  | error e =>
    cases hb : b.utc? with
    | error e' =>
      -- both sides fail in the one way there is
      obtain ⟨rfl, -⟩ := Value.utc?_eq_error_iff.mp ha
      obtain ⟨rfl, -⟩ := Value.utc?_eq_error_iff.mp hb
      rfl
    | ok u => rfl
  | ok t =>
    cases b.utc? with
    | error e => rfl
    | ok u => cases t <;> cases u <;> rfl

theorem align_swap (a b : Value) : align b a = (align a b).map Prod.swap := by
  unfold align
  rw [Bool.or_comm]
  split
  · exact alignTimes_swap a b
  · cases a <;> cases b <;> rfl

theorem hasDistinctNames_numberIn (s : String) : (numberIn s).hasDistinctNames = true := by
  unfold numberIn
  split <;> rfl

theorem hasDistinctNames_of_align (ha : a.hasDistinctNames = true) (hb : b.hasDistinctNames = true)
    (h : align a b = .ok (l, r)) : l.hasDistinctNames = true ∧ r.hasDistinctNames = true := by
  cases sides_of_align h with
  | times => exact ⟨rfl, rfl⟩
  | same => exact ⟨ha, hb⟩
  | leftNumber => exact ⟨hasDistinctNames_numberIn _, hb⟩
  | rightNumber => exact ⟨ha, hasDistinctNames_numberIn _⟩

theorem compares_mirrored (op : Operator) (ha : a.hasDistinctNames = true)
    (hb : b.hasDistinctNames = true) : compares op.mirrored b a = compares op a b := by
  unfold compares
  rw [align_swap]
  cases halign : align a b with
  | error e => rfl
  | ok sides =>
    obtain ⟨l, r⟩ := sides
    obtain ⟨hl, hr⟩ := hasDistinctNames_of_align ha hb halign
    dsimp only [Except.map, Prod.swap]
    rw [op.holds_mirrored hl hr]
    cases op.holds l r with
    | ok answer => rfl
    | error m => cases op <;> cases m <;> rfl

/-! ## One order -/

theorem compares_of_stands (halign : align a b = .ok (l, r)) (h : l.Stands r o) (op : Operator) :
    compares op a b = .ok (op.accepts o) := by
  rw [compares, halign]
  dsimp only
  rw [h.holds_eq]

/-- A comparison by order holds of sides in an order that it accepts, and of no others. -/
theorem compares_order_iff (hop : op.isOrder = true) : compares op a b = .ok true ↔
    ∃ l r o, align a b = .ok (l, r) ∧ l.Stands r o ∧ op.accepts o = true := by
  constructor
  · intro h
    unfold compares at h
    split at h
    · cases h
    · rename_i l r halign
      rw [Operator.holds_of_isOrder hop] at h
      rcases hcompare : l.compare? r with m | _ | o
      · rw [hcompare] at h
        cases m <;> cases op <;> first | cases hop; done | cases h
      · rw [hcompare] at h
        cases h
      · rw [hcompare] at h
        exact ⟨l, r, o, halign, Value.stands_of_compare? hcompare, Except.ok.inj h⟩
  · rintro ⟨l, r, o, halign, hstands, haccepts⟩
    rw [compares_of_stands halign hstands, haccepts]

theorem compares_eq_iff : compares .eq a b = .ok true ↔
    ∃ l r, align a b = .ok (l, r) ∧ l.same r = true := by
  unfold compares
  cases align a b with
  | error e => simp
  | ok sides =>
    obtain ⟨l, r⟩ := sides
    simp [Operator.holds]

/-- The sides are in one order at most. -/
theorem stands_unique {l' r' : Value} {o' : Ordering} (halign : align a b = .ok (l, r))
    (halign' : align a b = .ok (l', r')) (h : l.Stands r o) (h' : l'.Stands r' o') : o = o' := by
  cases halign.symm.trans halign'
  cases h.compare?_eq.symm.trans h'.compare?_eq
  rfl

theorem not_compares_lt_gt : ¬(compares .lt a b = .ok true ∧ compares .gt a b = .ok true) := by
  rw [compares_order_iff rfl, compares_order_iff rfl]
  rintro ⟨⟨l, r, o, halign, h, hlt⟩, l', r', o', halign', h', hgt⟩
  cases stands_unique halign halign' h h'
  cases o <;> first | cases hlt; done | cases hgt

theorem not_compares_order_eq (hop : op.isOrder = true) (hstrict : op.accepts .eq = false) :
    ¬(compares op a b = .ok true ∧ compares .eq a b = .ok true) := by
  rw [compares_order_iff hop, compares_eq_iff]
  rintro ⟨⟨l, r, o, halign, h, haccepts⟩, l', r', halign', hsame⟩
  cases halign.symm.trans halign'
  rw [h.same_eq, beq_iff_eq] at hsame
  rw [hsame, hstrict] at haccepts
  cases haccepts

/-! ## Sides in an order -/

/-- Two sides that are in an order: numbers, a number and a text that writes one, two texts, or a
date or a time and a value that reads as one. -/
inductive Comparable : Value → Value → Prop where
  | numbers {a b : Value} {p q : Quantity} : a.quantity? = some p → b.quantity? = some q →
      p ≠ .undefined → q ≠ .undefined → Comparable a b
  | numberText {a : Value} {p : Quantity} {s : String} {x : Binary64} : a.isNumber = true →
      a.quantity? = some p → p ≠ .undefined → Numeral.real? s = some x → x.isNaN = false →
      Comparable a (.text s)
  | textNumber {b : Value} {q : Quantity} {s : String} {x : Binary64} : b.isNumber = true →
      b.quantity? = some q → q ≠ .undefined → Numeral.real? s = some x → x.isNaN = false →
      Comparable (.text s) b
  | texts (s t : String) : Comparable (.text s) (.text t)
  | times {a b : Value} {t u : DateTime} : (isTime a || isTime b) = true →
      a.utc? = .ok (some t) → b.utc? = .ok (some u) → Comparable a b

theorem align_of_quantity {p q : Quantity} (ha : a.quantity? = some p) (hb : b.quantity? = some q) :
    align a b = .ok (a, b) := by
  cases a <;> first | cases ha; done | (cases b <;> first | cases hb; done | rfl)

theorem align_number_text {s : String} (ha : a.isNumber = true) :
    align a (.text s) = .ok (a, numberIn s) := by
  cases a <;> first | cases ha; done | rfl

theorem utc?_eq_ok_some {v : Value} {t : DateTime} (h : v.utc? = .ok (some t)) :
    ∃ i, t = .utc i := by
  unfold Value.utc? at h
  split at h
  · cases h
  · obtain ⟨u, hu, hsome⟩ := Outcome.map_eq_ok h
    cases hsome
    unfold DateTime.inUtc at hu
    split at hu
    · cases hu
      exact ⟨_, rfl⟩
    · cases hu

/-- A number beside a text that writes one. -/
theorem stands_numberIn {p : Quantity} {s : String} {x : Binary64} (ha : a.quantity? = some p)
    (hp : p ≠ .undefined) (hs : Numeral.real? s = some x) (hx : x.isNaN = false) :
    ∃ o, a.Stands (numberIn s) o := by
  rw [numberIn, hs]
  exact Value.exists_stands_of_quantity ha rfl hp (Binary64.quantity_ne_undefined hx)

theorem Comparable.stands (h : Comparable a b) :
    ∃ l r o, align a b = .ok (l, r) ∧ l.Stands r o := by
  cases h with
  | numbers ha hb hp hq =>
    obtain ⟨o, ho⟩ := Value.exists_stands_of_quantity ha hb hp hq
    exact ⟨a, b, o, align_of_quantity ha hb, ho⟩
  | numberText hnumber ha hp hs hx =>
    obtain ⟨o, ho⟩ := stands_numberIn ha hp hs hx
    exact ⟨_, _, o, align_number_text hnumber, ho⟩
  | @textNumber _ q s x hnumber hb hq hs hx =>
    have halign : align (.text s) b = .ok (numberIn s, b) := by
      rw [align_swap, align_number_text hnumber]
      rfl
    rw [numberIn, hs] at halign
    obtain ⟨o, ho⟩ := Value.exists_stands_of_quantity (u := .float x) rfl hb
      (Binary64.quantity_ne_undefined hx) hq
    exact ⟨_, _, o, halign, ho⟩
  | texts s t => exact ⟨_, _, _, rfl, ColumnKind.stands_of_key (k := .text) (by decide) rfl rfl⟩
  | times htime ha hb =>
    obtain ⟨i, rfl⟩ := utc?_eq_ok_some ha
    obtain ⟨j, rfl⟩ := utc?_eq_ok_some hb
    refine ⟨.datetime (.utc i), .datetime (.utc j), _, ?_, ColumnKind.stands_datetime rfl rfl⟩
    unfold align
    rw [if_pos htime, alignTimes, ha, hb]

/-! ## Rows -/

variable {column : String} {row row' : Record}

/-- Whether a row satisfies a comparison of a column with a value. -/
def Accepted (row : Record) (column : String) (op : Operator) (v : Value) : Prop :=
  accepts ⟨column, op, v⟩ row = .ok true

theorem accepts_eq_compares (hrow : Record.find? row column = some a) (op : Operator) (v : Value) :
    accepts ⟨column, op, v⟩ row = compares op a v := by
  rw [accepts, hrow]

/-- The six comparisons of the value of a column with a filter value, of any kinds, as long as both
can be brought together. -/
theorem comparisons_cohere (column : String) (row row' : Record) (a b : Value)
    (hrow : Record.find? row column = some a) (hrow' : Record.find? row' column = some b)
    (ha : a.hasDistinctNames = true) (hb : b.hasDistinctNames = true)
    (halign : ∃ sides, align a b = .ok sides) :
    (∃ answer, accepts ⟨column, .eq, b⟩ row = .ok answer ∧
        accepts ⟨column, .ne, b⟩ row = .ok (!answer)) ∧
      ¬(Accepted row column .lt b ∧ Accepted row column .eq b) ∧
      ¬(Accepted row column .lt b ∧ Accepted row column .gt b) ∧
      ¬(Accepted row column .gt b ∧ Accepted row column .eq b) ∧
      (∀ op : Operator,
        accepts ⟨column, op.mirrored, a⟩ row' = accepts ⟨column, op, b⟩ row) ∧
      (Comparable a b →
        (∀ op, ∃ answer, accepts ⟨column, op, b⟩ row = .ok answer) ∧
        (Accepted row column .lt b ∨ Accepted row column .eq b ∨ Accepted row column .gt b) ∧
        (Accepted row column .gte b ↔
          Accepted row column .gt b ∨ Accepted row column .eq b) ∧
        (Accepted row column .lte b ↔
          Accepted row column .lt b ∨ Accepted row column .eq b)) ∧
      ((∃ u, a = Client.decode u) → b.isPlain = true →
        ∀ op, ∃ answer, accepts ⟨column, op, b⟩ row = .ok answer) := by
  simp only [Accepted, accepts_eq_compares hrow, accepts_eq_compares hrow']
  refine ⟨?_, not_compares_order_eq rfl rfl, not_compares_lt_gt, not_compares_order_eq rfl rfl,
    fun op => compares_mirrored op ha hb, fun hcomparable => ?_, ?_⟩
  · obtain ⟨⟨l, r⟩, halign⟩ := halign
    rw [compares, compares, halign]
    exact ⟨l.same r, rfl, rfl⟩
  · obtain ⟨l, r, o, halign, hstands⟩ := hcomparable.stands
    simp only [compares_of_stands halign hstands]
    refine ⟨fun op => ⟨_, rfl⟩, ?_⟩
    cases o <;> simp [Operator.accepts]
  · rintro ⟨u, rfl⟩ hplain op
    cases hanswer : compares op (Client.decode u) b with
    | ok answer => exact ⟨answer, rfl⟩
    | error e =>
      rw [compares_eq_error_iff hplain] at hanswer
      obtain ⟨sides, hsides⟩ := halign
      rw [hanswer] at hsides
      cases hsides

/-- A level that a row holds as text, and one that a filter gives as a number. -/
theorem comparisons_cohere_level :
    ∃ a b : Value, a.hasDistinctNames = true ∧ b.hasDistinctNames = true ∧
      (∃ sides, align a b = .ok sides) ∧ Comparable a b ∧
      accepts ⟨"level", .lt, a⟩ [("level", b)] = accepts ⟨"level", .gt, b⟩ [("level", a)] ∧
      (Accepted [("level", a)] "level" .gte b ↔
        Accepted [("level", a)] "level" .gt b ∨ Accepted [("level", a)] "level" .eq b) := by
  have hread : Numeral.real? "12.5" = some ((Numeral.real? "12.5").getD .zero) := by decide +kernel
  have hcomparable : Comparable (.text "12.5") (.int 12) :=
    .textNumber rfl rfl nofun hread (by decide +kernel)
  obtain ⟨l, r, o, halign, -⟩ := hcomparable.stands
  have hcohere := comparisons_cohere "level" [("level", .text "12.5")] [("level", .int 12)]
    (.text "12.5") (.int 12) rfl rfl rfl rfl ⟨_, halign⟩
  obtain ⟨-, -, -, -, hmirrored, hlinear, -⟩ := hcohere
  exact ⟨_, _, rfl, rfl, ⟨_, halign⟩, hcomparable, hmirrored .gt, (hlinear hcomparable).2.2.1⟩

end Filter
end EventQuery
