import EventQuery.Proofs.Statement.Token

/-!
# EventQuery.Proofs.Statement.Condition

What a WHERE clause says of a row. Truth has three values: a comparison of values without an
order, such as one with null, is unknown, and a row is selected only where the clause is true.

`Condition.read` reads the tokens of a clause with the precedence of SQL: `AND` binds tighter than
`OR`, `x BETWEEN a AND b` is one comparison with an `AND` of its own, and parentheses come first.
It goes through the tokens once; a `Level` holds what is read since the last parenthesis opened.

* `IsFactor.parens`, `reads_conjunction`, `reads_disjunction`: how readings are put together.
* `read_eq`: a text that reads as a condition does so at the top as well.
-/

namespace EventQuery

/-- Whether a comparison holds of two values; unknown when they have no order. -/
def Operator.truth (op : Operator) (x y : Value) : Option Bool :=
  match x.compare? y with
  | .ok (some o) => some (op.accepts o)
  | _ => none

namespace Truth

def and : Option Bool → Option Bool → Option Bool
  | some false, _ | _, some false => some false
  | some true, some true => some true
  | _, _ => none

def or : Option Bool → Option Bool → Option Bool
  | some true, _ | _, some true => some true
  | some false, some false => some false
  | _, _ => none

theorem and_eq_true {a b : Option Bool} :
    and a b = some true ↔ a = some true ∧ b = some true := by
  rcases a with _ | _ | _ <;> rcases b with _ | _ | _ <;> simp [and]

theorem or_eq_true {a b : Option Bool} :
    or a b = some true ↔ a = some true ∨ b = some true := by
  rcases a with _ | _ | _ <;> rcases b with _ | _ | _ <;> simp [or]

end Truth

inductive Operand where
  | column (name : String)
  | place (digits : String)

/-- A column of the row, or the value bound in a place, counted from one. -/
def Operand.value (row : Record) (params : List Value) : Operand → Option Value
  | column name => Record.find? row name
  | place digits =>
    match Nat.ofDigitChars 10 digits.toList 0 with
    | 0 => none
    | n + 1 => params[n]?

theorem Operand.value_place (row : Record) (params : List Value) (n : Nat) :
    (Operand.place (toString (n + 1))).value row params = params[n]? := by
  simp [Operand.value, Nat.toString_eq_repr, Nat.toList_repr]

inductive Condition where
  | never
  | compares (op : Operator) (x y : Operand)
  | between (x low high : Operand)
  | both (c d : Condition)
  | either (c d : Condition)

namespace Condition

/-- Whether a comparison of two operands holds; unknown where one of them has no value. -/
def comparison (row : Record) (params : List Value) (op : Operator) (x y : Operand) :
    Option Bool :=
  match x.value row params, y.value row params with
  | some u, some v => op.truth u v
  | _, _ => none

def truth (row : Record) (params : List Value) : Condition → Option Bool
  | never => some false
  | compares op x y => comparison row params op x y
  | between x low high =>
    Truth.and (comparison row params .gte x low) (comparison row params .lte x high)
  | both c d => Truth.and (c.truth row params) (d.truth row params)
  | either c d => Truth.or (c.truth row params) (d.truth row params)

/-! ## Reading -/

/-- The comparison of a sign. -/
def sign? : String → Option Operator
  | "=" => some .eq
  | "<>" => some .ne
  | "<" => some .lt
  | "<=" => some .lte
  | ">" => some .gt
  | ">=" => some .gte
  | _ => none

/-- How much of a comparison has been read. -/
inductive Stage where
  | start
  | left (x : Operand)
  | right (op : Operator) (x : Operand)
  /-- After `x BETWEEN`. -/
  | low (x : Operand)
  /-- After `x BETWEEN low`. -/
  | middle (x low : Operand)
  /-- After `x BETWEEN low AND`. -/
  | high (x low : Operand)
  | done (c : Condition)

/-- What has been read since a parenthesis opened: the disjuncts before the last `OR`, the
conjuncts before the last `AND` after it, and the rest. -/
structure Level where
  disjuncts : Option Condition := none
  conjuncts : Option Condition := none
  stage : Stage := .start

/-- Puts a condition after those that are there. -/
def join (f : Condition → Condition → Condition) : Option Condition → Condition → Condition
  | none, c => c
  | some before, c => f before c

namespace Level

def conjunction (l : Level) (c : Condition) : Condition := join .both l.conjuncts c

def condition (l : Level) (c : Condition) : Condition :=
  join .either l.disjuncts (l.conjunction c)

def operand (l : Level) (y : Operand) : Option Level :=
  match l.stage with
  | .start => some { l with stage := .left y }
  | .right op x => some { l with stage := .done (.compares op x y) }
  | .low x => some { l with stage := .middle x y }
  | .high x low => some { l with stage := .done (.between x low y) }
  | _ => none

end Level

/-- Reads one token, inside the parentheses that are open. A cast does not count. -/
def step (s : Level × List Level) (t : Token) : Option (Level × List Level) :=
  let (l, outer) := s
  match t, l.stage with
  | .cast _, _ => some (l, outer)
  | .name column, _ => (l.operand (.column column)).map (·, outer)
  | .place digits, _ => (l.operand (.place digits)).map (·, outer)
  | .sign mark, .left x => (sign? mark).map fun op => ({ l with stage := .right op x }, outer)
  | .word "BETWEEN", .left x => some ({ l with stage := .low x }, outer)
  | .word "AND", .middle x low => some ({ l with stage := .high x low }, outer)
  | .word "AND", .done c =>
    some ({ l with conjuncts := some (l.conjunction c), stage := .start }, outer)
  | .word "OR", .done c => some ({ disjuncts := some (l.condition c) }, outer)
  | .word "FALSE", .start => some ({ l with stage := .done .never }, outer)
  | .mark '(', .start => some ({}, l :: outer)
  | .mark ')', .done c =>
    match outer with
    | m :: outer => some ({ m with stage := .done (l.condition c) }, outer)
    | [] => none
  | _, _ => none

/-- The condition that tokens make, if they make one. -/
def read (ts : List Token) : Option Condition :=
  match ts.foldlM step ({}, []) with
  | some (l, []) =>
    match l.stage with
    | .done c => some (l.condition c)
    | _ => none
  | _ => none

/-- Tokens that make one condition wherever one may begin. -/
def IsFactor (ts : List Token) (c : Condition) : Prop :=
  ∀ disjuncts conjuncts outer,
    ts.foldlM step (⟨disjuncts, conjuncts, .start⟩, outer)
      = some (⟨disjuncts, conjuncts, .done c⟩, outer)

/-- Tokens that make a condition between two parentheses. -/
def Reads (ts : List Token) (c : Condition) : Prop :=
  ∀ outer, ∃ l d, ts.foldlM step ({}, outer) = some (l, outer) ∧ l.stage = .done d ∧
    l.condition d = c

variable {ts us : List Token} {c d : Condition}

theorem read_eq (h : Reads ts c) : read ts = some c := by
  obtain ⟨l, d, hts, hstage, hc⟩ := h []
  simp only [read, hts, hstage, hc]

example : read (Token.ofText "\"a\" = $1 OR \"b\" BETWEEN $2 AND $3 AND \"c\" > $4::float8")
    = some (.either (.compares .eq (.column "a") (.place "1"))
      (.both (.between (.column "b") (.place "2") (.place "3"))
        (.compares .gt (.column "c") (.place "4")))) := by rfl

theorem IsFactor.reads (h : IsFactor ts c) : Reads ts c :=
  fun outer => ⟨⟨none, none, .done c⟩, c, h none none outer, rfl, rfl⟩

theorem Reads.parens (h : Reads ts c) : IsFactor (.mark '(' :: (ts ++ [.mark ')'])) c := by
  intro disjuncts conjuncts outer
  obtain ⟨l, d, hts, hstage, hc⟩ := h (⟨disjuncts, conjuncts, .start⟩ :: outer)
  rw [List.foldlM_cons]
  show (ts ++ [Token.mark ')']).foldlM step ({}, ⟨disjuncts, conjuncts, .start⟩ :: outer) = _
  rw [List.foldlM_append, hts]
  simp [step, hstage, hc]

theorem reads_disjunction (hts : IsFactor ts c) (hus : IsFactor us d) :
    Reads (ts ++ .word "OR" :: us) (.either c d) := by
  intro outer
  refine ⟨⟨some c, none, .done d⟩, d, ?_, rfl, rfl⟩
  rw [List.foldlM_append, hts none none outer]
  exact hus (some c) none outer

/-- Conditions one after the other, all of which hold. -/
def all : Condition → List Condition → Condition := List.foldl .both

/-- Factors with `AND` between them, the last of which is read into the level. -/
theorem foldlM_conjunction {tss : List (List Token)} {cs : List Condition}
    (h : List.Forall₂ IsFactor (ts :: tss) (c :: cs)) (outer : List Level) :
    ∀ disjuncts conjuncts, ∃ l d,
      ([Token.word "AND"].intercalate (ts :: tss)).foldlM step
          (⟨disjuncts, conjuncts, .start⟩, outer) = some (l, outer) ∧
        l.stage = .done d ∧ l.disjuncts = disjuncts ∧
        l.conjunction d = all (join .both conjuncts c) cs := by
  -- on the factors that are left; those already read are in the conjuncts of the level
  induction tss generalizing ts c cs with
  | nil =>
    intro disjuncts conjuncts
    cases h with
    | cons hts hrest =>
      cases hrest
      exact ⟨_, c, by simpa using hts disjuncts conjuncts outer, rfl, rfl, rfl⟩
  | cons us tss ih =>
    intro disjuncts conjuncts
    cases h with
    | cons hts hrest =>
      cases hrest with
      | @cons _ d _ cs hus hrest =>
        obtain ⟨l, e, hl, hstage, hdis, hcon⟩ :=
          ih (.cons hus hrest) disjuncts (some (join .both conjuncts c))
        refine ⟨l, e, ?_, hstage, hdis, hcon⟩
        rw [List.intercalate_cons_cons, List.append_assoc, List.foldlM_append,
          hts disjuncts conjuncts outer]
        exact hl

theorem reads_conjunction {tss : List (List Token)} {cs : List Condition}
    (h : List.Forall₂ IsFactor (ts :: tss) (c :: cs)) :
    Reads ([Token.word "AND"].intercalate (ts :: tss)) (all c cs) := by
  intro outer
  obtain ⟨l, d, hl, hstage, hdis, hcon⟩ := foldlM_conjunction h outer none none
  refine ⟨l, d, hl, hstage, ?_⟩
  rw [Level.condition, hdis, hcon]
  rfl

theorem all_eq_true {row : Record} {params : List Value} (cs : List Condition) :
    ∀ c : Condition, (all c cs).truth row params = some true ↔
      ∀ d ∈ c :: cs, d.truth row params = some true := by
  induction cs with
  | nil => simp [all]
  | cons d cs ih =>
    intro c
    have h := ih (.both c d)
    simp only [all, List.foldl_cons, List.forall_mem_cons, truth, Truth.and_eq_true] at h ⊢
    rw [h, and_assoc]

end Condition
end EventQuery
