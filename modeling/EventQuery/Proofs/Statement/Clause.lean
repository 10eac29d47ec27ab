import EventQuery.Proofs.Name.Characters
import EventQuery.Proofs.Statement.Condition

/-!
# EventQuery.Proofs.Statement.Clause

The conditions of a request, from their text back to what they mean. For a condition `p` that is
well formed, and whatever values are bound before it:

* `open_text`: its text has the tokens `p.tokens`;
* `reads_tokens`: those make the condition `p.condition`;
* `truth_condition`: that is true of a row exactly when `p` holds of it.

`open_factors`, `isFactor_factors` and `truth_conditions` say the same of a list of conditions that
share one list of bound values, each in parentheses.
-/

namespace EventQuery

/-- Whether a row has a column, with a value that satisfies a comparison. -/
def Record.Satisfies (row : Record) (column : String) (op : Operator) (v : Value) : Prop :=
  ∃ u, Record.find? row column = some u ∧ op.truth u v = some true

/-- A window, as two comparisons of the column that dates events. -/
def Window.filters (w : Window) : List Filter :=
  [⟨Name.timestampColumn, .gte, .datetime w.start⟩, ⟨Name.timestampColumn, .lt, .datetime w.stop⟩]

/-- Whether a row lies in a window, its start included and its end not. -/
def Window.Holds (w : Window) (row : Record) : Prop :=
  row.Satisfies Name.timestampColumn .gte (.datetime w.start) ∧
    row.Satisfies Name.timestampColumn .lt (.datetime w.stop)

/-- The tokens of conditions: columns, and four words. -/
def Token.InCondition : Token → Prop
  | .name s => Name.isProperty s = true
  | .unclosed _ => False
  | .word w => w ∈ ["AND", "OR", "BETWEEN", "FALSE"]
  | _ => True

namespace Predicate

/-- Whether a condition holds of a row. -/
def Holds (row : Record) : Predicate → Prop
  | within w => w.Holds row
  | inside column low high => row.Satisfies column .gte low ∧ row.Satisfies column .lte high
  | outside column low high => row.Satisfies column .lt low ∨ row.Satisfies column .gt high
  | nothing => False
  | comparisons filters => ∀ f ∈ filters, row.Satisfies f.property f.operator f.value

def columns : Predicate → List String
  | within _ => [Name.timestampColumn]
  | inside column _ _ | outside column _ _ => [column]
  | nothing => []
  | comparisons filters => filters.map (·.property)

/-- Every column is an accepted property, and there is something to compare. -/
structure Formed (p : Predicate) : Prop where
  columns : ∀ c ∈ p.columns, Name.isProperty c = true
  nonempty : p ≠ .comparisons []

/-! ## Comparisons -/

theorem closed_column {column : String} (h : Name.isProperty column = true) :
    Token.Closed (Name.inQuotes column) [.name column] :=
  Token.closed_inQuotes (Name.quote_not_mem_property h)

/-- The tokens of a comparison, after some values are bound. -/
def comparisonTokens (bound : Nat) (f : Filter) : List Token :=
  .name f.property :: .sign f.operator.sql :: .place (toString (bound + 1)) :: f.value.castTokens

def comparisonCondition (bound : Nat) (f : Filter) : Condition :=
  .compares f.operator (.column f.property) (.place (toString (bound + 1)))

theorem comparisonTexts_eq (bound : Nat) (filters : List Filter) :
    comparisonTexts (bound + 1) filters
      = (filters.zipIdx bound).map fun (f, i) => comparisonText (i + 1) f := by
  induction filters generalizing bound with
  | nil => rfl
  | cons f rest ih => rw [comparisonTexts, ih, List.zipIdx_cons, List.map_cons]

theorem closed_sign (op : Operator) : Token.Closed (" " ++ op.sql ++ " ") [.sign op.sql] := by
  cases op <;> exact fun _ => rfl

theorem open_comparisonText (bound : Nat) {f : Filter} (h : Name.isProperty f.property = true) :
    Token.Open (comparisonText (bound + 1) f) (comparisonTokens bound f) := by
  have hname := closed_column h
  have htext := (hname.append (closed_sign f.operator)).append_open
    (Token.open_placeholder_value (bound + 1) f.value)
  simpa [comparisonText, comparisonTokens, String.append_assoc] using htext

theorem foldlM_castTokens (v : Value) (s : Condition.Level × List Condition.Level) :
    v.castTokens.foldlM Condition.step s = some s := by
  cases v <;> rfl

theorem sign?_sql (op : Operator) : Condition.sign? op.sql = some op := by
  cases op <;> rfl

theorem isFactor_comparison (bound : Nat) (f : Filter) :
    Condition.IsFactor (comparisonTokens bound f) (comparisonCondition bound f) := by
  intro disjuncts conjuncts outer
  simp [comparisonTokens, comparisonCondition, Condition.step, Condition.Level.operand, sign?_sql,
    foldlM_castTokens]

/-! ## One condition -/

/-- Tokens of comparisons with `AND` between them. -/
def conjunctionTokens (bound : Nat) (filters : List Filter) : List Token :=
  [Token.word "AND"].intercalate ((filters.zipIdx bound).map fun (f, i) => comparisonTokens i f)

/-- The condition that all comparisons hold, of which there is one. -/
def conjunctionCondition (bound : Nat) (filters : List Filter) : Condition :=
  match (filters.zipIdx bound).map fun (f, i) => comparisonCondition i f with
  | [] => .never
  | c :: cs => .all c cs

def tokens (bound : Nat) : Predicate → List Token
  | within w => conjunctionTokens bound w.filters
  | inside column _ _ =>
    [.name column, .word "BETWEEN", .place (toString (bound + 1)), .word "AND",
      .place (toString (bound + 2))]
  | outside column _ _ =>
    .mark '(' :: ([.name column, .sign "<", .place (toString (bound + 1))]
      ++ .word "OR" :: [.name column, .sign ">", .place (toString (bound + 2))] ++ [.mark ')'])
  | nothing => [.word "FALSE"]
  | comparisons filters => conjunctionTokens bound filters

def condition (bound : Nat) : Predicate → Condition
  | within w => conjunctionCondition bound w.filters
  | inside column _ _ =>
    .between (.column column) (.place (toString (bound + 1))) (.place (toString (bound + 2)))
  | outside column _ _ =>
    .either (.compares .lt (.column column) (.place (toString (bound + 1))))
      (.compares .gt (.column column) (.place (toString (bound + 2))))
  | nothing => .never
  | comparisons filters => conjunctionCondition bound filters

theorem open_conjunction (bound : Nat) {filters : List Filter}
    (h : ∀ f ∈ filters, Name.isProperty f.property = true) :
    Token.Open ((comparisons filters).text bound) (conjunctionTokens bound filters) := by
  have hsep : Token.Closed " AND " [.word "AND"] := fun _ => rfl
  rw [text, comparisonTexts_eq]
  refine Token.open_intercalate hsep (fun _ => rfl) ?_
  rw [List.forall₂_map_left_iff, List.forall₂_map_right_iff, List.forall₂_same]
  intro x hx
  exact open_comparisonText x.2 (h x.1 (List.fst_mem_of_mem_zipIdx hx))

theorem isProperty_filters (w : Window) :
    ∀ f ∈ w.filters, Name.isProperty f.property = true := by
  simp [Window.filters, Name.isProperty_timestampColumn]

theorem text_within (bound : Nat) (w : Window) :
    (within w).text bound = (comparisons w.filters).text bound := by
  simp only [text, Window.filters, comparisonTexts, comparisonText, String.intercalate_cons_cons,
    String.intercalate_singleton, Operator.sql, Value.cast]
  simp [String.append_assoc]

theorem open_text (bound : Nat) {p : Predicate} (h : p.Formed) :
    Token.Open (p.text bound) (p.tokens bound) := by
  cases p with
  | within w =>
    rw [text_within]
    exact open_conjunction bound (isProperty_filters w)
  | inside column low high =>
    have hname := closed_column (h.columns column (by simp [columns]))
    have hbetween : Token.Closed " BETWEEN " [.word "BETWEEN"] := fun _ => rfl
    have hand : Token.Closed " AND " [.word "AND"] := fun _ => rfl
    have hlow := (hname.append hbetween).append_open (Token.open_placeholder (bound + 1))
    exact (hlow.append_closed hand fun _ => rfl).append_open (Token.open_placeholder (bound + 2))
  | outside column low high =>
    have hname := closed_column (h.columns column (by simp [columns]))
    have hopen : Token.Closed "(" [.mark '('] := fun _ => rfl
    have hless : Token.Closed " < " [.sign "<"] := fun _ => rfl
    have hor : Token.Closed " OR " [.word "OR"] := fun _ => rfl
    have hmore : Token.Closed " > " [.sign ">"] := fun _ => rfl
    have hclose : Token.Closed ")" [.mark ')'] := fun _ => rfl
    have hlow := ((hopen.append hname).append hless).append_open
      (Token.open_placeholder (bound + 1))
    have hhigh := (((hlow.append_closed hor fun _ => rfl).append hname).append hmore).append_open
      (Token.open_placeholder (bound + 2))
    exact (hhigh.append_closed hclose fun _ => rfl).open
  | nothing =>
    have hfalse : Token.Open "FALSE" [.word "FALSE"] := fun _ hrest =>
      Token.lex_breaks (k := .word) (by decide) hrest "FALSE".toList
    exact hfalse
  | comparisons filters =>
    exact open_conjunction bound fun f hf => h.columns _ (List.mem_map_of_mem hf)

theorem reads_conjunctionTokens (bound : Nat) {filters : List Filter} (h : filters ≠ []) :
    Condition.Reads (conjunctionTokens bound filters) (conjunctionCondition bound filters) := by
  cases filters with
  | nil => exact absurd rfl h
  | cons f rest =>
    rw [conjunctionTokens, conjunctionCondition, List.zipIdx_cons, List.map_cons, List.map_cons]
    refine Condition.reads_conjunction (.cons (isFactor_comparison bound f) ?_)
    rw [List.forall₂_map_left_iff, List.forall₂_map_right_iff, List.forall₂_same]
    intro x _
    exact isFactor_comparison x.2 x.1

theorem reads_tokens (bound : Nat) {p : Predicate} (h : p.Formed) :
    Condition.Reads (p.tokens bound) (p.condition bound) := by
  cases p with
  | within w => exact reads_conjunctionTokens bound (by simp [Window.filters])
  | inside column low high => exact Condition.IsFactor.reads fun _ _ _ => rfl
  | outside column low high =>
    refine (Condition.Reads.parens (Condition.reads_disjunction ?_ ?_)).reads
    · exact fun _ _ _ => rfl
    · exact fun _ _ _ => rfl
  | nothing => exact Condition.IsFactor.reads fun _ _ _ => rfl
  | comparisons filters =>
    refine reads_conjunctionTokens bound ?_
    rintro rfl
    exact h.nonempty rfl

/-! ## What a condition is made of -/

theorem places_castTokens (v : Value) : Token.places v.castTokens = [] := by
  cases v <;> rfl

theorem places_conjunctionTokens (bound : Nat) (filters : List Filter) :
    Token.places (conjunctionTokens bound filters) = Token.numbered bound filters.length := by
  rw [conjunctionTokens, Token.places_intercalate rfl]
  induction filters generalizing bound with
  | nil => rfl
  | cons f rest ih =>
    have hplaces : Token.places (comparisonTokens bound f) = Token.numbered bound 1 := by
      show toString (bound + 1) :: Token.places f.value.castTokens = _
      rw [places_castTokens]
      rfl
    rw [List.zipIdx_cons, List.map_cons, List.flatMap_cons, ih, hplaces, Token.numbered_append,
      Nat.add_comm 1, List.length_cons]

/-- A condition has one placeholder for each value that it binds, in their order. -/
theorem places_tokens (bound : Nat) (p : Predicate) :
    Token.places (p.tokens bound) = Token.numbered bound p.values.length := by
  cases p with
  | within w => exact places_conjunctionTokens bound w.filters
  | inside column low high => rfl
  | outside column low high => rfl
  | nothing => rfl
  | comparisons filters =>
    rw [tokens, places_conjunctionTokens, values, List.length_map]

theorem inCondition_intercalate {tss : List (List Token)}
    (h : ∀ ts ∈ tss, ∀ t ∈ ts, t.InCondition) :
    ∀ t ∈ [Token.word "AND"].intercalate tss, t.InCondition := by
  intro t ht
  rcases Token.mem_intercalate ht with hand | ⟨ts, hts, ht⟩
  · rw [List.mem_singleton.mp hand]
    simp [Token.InCondition]
  · exact h ts hts t ht

theorem inCondition_castTokens (v : Value) : ∀ t ∈ v.castTokens, t.InCondition := by
  cases v <;> simp [Value.castTokens, Token.InCondition]

theorem inCondition_conjunctionTokens (bound : Nat) {filters : List Filter}
    (h : ∀ f ∈ filters, Name.isProperty f.property = true) :
    ∀ t ∈ conjunctionTokens bound filters, t.InCondition := by
  refine inCondition_intercalate fun ts hts => ?_
  obtain ⟨⟨f, i⟩, hf, rfl⟩ := List.mem_map.mp hts
  have hproperty := h f (List.fst_mem_of_mem_zipIdx hf)
  dsimp only [comparisonTokens]
  rw [List.forall_mem_cons, List.forall_mem_cons, List.forall_mem_cons]
  exact ⟨hproperty, trivial, trivial, inCondition_castTokens f.value⟩

theorem inCondition_tokens (bound : Nat) {p : Predicate} (h : p.Formed) :
    ∀ t ∈ p.tokens bound, t.InCondition := by
  cases p with
  | within w => exact inCondition_conjunctionTokens bound (isProperty_filters w)
  | inside column low high =>
    have hproperty := h.columns column (by simp [columns])
    simp [tokens, Token.InCondition, hproperty]
  | outside column low high =>
    have hproperty := h.columns column (by simp [columns])
    simp [tokens, Token.InCondition, hproperty]
  | nothing => simp [tokens, Token.InCondition]
  | comparisons filters =>
    exact inCondition_conjunctionTokens bound fun f hf => h.columns _ (List.mem_map_of_mem hf)

/-! ## What a condition means -/

/-- Values are bound in consecutive places of a list, after some others. -/
def Binds (params : List Value) (bound : Nat) (values : List Value) : Prop :=
  ∀ i v, values[i]? = some v → params[bound + i]? = some v

theorem Binds.append {params vs us : List Value} {bound : Nat} (h : Binds params bound (vs ++ us)) :
    Binds params bound vs ∧ Binds params (bound + vs.length) us := by
  refine ⟨fun i v hi => h i v ?_, fun i v hi => ?_⟩
  · rw [List.getElem?_append_left (List.getElem?_eq_some_iff.mp hi).1, hi]
  · rw [Nat.add_assoc]
    refine h (vs.length + i) v ?_
    rw [List.getElem?_append_right (Nat.le_add_right _ _), Nat.add_sub_cancel_left, hi]

theorem Binds.head {params vs : List Value} {bound : Nat} {v : Value}
    (h : Binds params bound (v :: vs)) : params[bound]? = some v := h 0 v rfl

theorem Binds.tail {params vs : List Value} {bound : Nat} {v : Value}
    (h : Binds params bound (v :: vs)) : Binds params (bound + 1) vs := by
  have happend : Binds params bound ([v] ++ vs) := h
  exact happend.append.2

variable {row : Record} {params : List Value}

theorem comparison_eq_true {bound : Nat} {v : Value} (h : params[bound]? = some v)
    (op : Operator) (column : String) :
    Condition.comparison row params op (.column column) (.place (toString (bound + 1)))
      = some true ↔ row.Satisfies column op v := by
  rw [Condition.comparison, Operand.value_place, h, Operand.value, Record.Satisfies]
  cases Record.find? row column <;> simp

theorem truth_conjunction {bound : Nat} {filters : List Filter} (h : filters ≠ [])
    (hb : Binds params bound (filters.map (·.value))) :
    (conjunctionCondition bound filters).truth row params = some true ↔
      ∀ f ∈ filters, row.Satisfies f.property f.operator f.value := by
  -- the places go up with the filters, so the values bound before them vary in the induction
  have hall (filters : List Filter) (bound : Nat)
      (hb : Binds params bound (filters.map (·.value))) :
      (∀ c ∈ (filters.zipIdx bound).map fun (f, i) => comparisonCondition i f,
        c.truth row params = some true) ↔
        ∀ f ∈ filters, row.Satisfies f.property f.operator f.value := by
    induction filters generalizing bound with
    | nil => simp
    | cons f rest ih =>
      rw [List.zipIdx_cons, List.map_cons, List.forall_mem_cons, List.forall_mem_cons,
        ih (bound + 1) hb.tail]
      exact and_congr_left' (comparison_eq_true hb.head f.operator f.property)
  cases filters with
  | nil => exact absurd rfl h
  | cons f rest =>
    rw [← hall _ bound hb, conjunctionCondition, List.zipIdx_cons, List.map_cons]
    exact Condition.all_eq_true _ _

theorem truth_condition {bound : Nat} {p : Predicate} (h : p.Formed)
    (hb : Binds params bound p.values) :
    (p.condition bound).truth row params = some true ↔ p.Holds row := by
  cases p with
  | within w =>
    rw [condition, truth_conjunction (by simp [Window.filters]) hb]
    simp [Window.filters, Holds, Window.Holds]
  | inside column low high =>
    rw [condition, Condition.truth, Truth.and_eq_true, comparison_eq_true hb.head,
      comparison_eq_true hb.tail.head, Holds]
  | outside column low high =>
    rw [condition, Condition.truth, Truth.or_eq_true, Condition.truth, Condition.truth,
      comparison_eq_true hb.head, comparison_eq_true hb.tail.head, Holds]
  | nothing => simp [condition, Condition.truth, Holds]
  | comparisons filters =>
    rw [condition, truth_conjunction (fun hnil => h.nonempty (by rw [hnil])) hb, Holds]

/-- Whether the text of a condition is true of a row when some values are bound before its own. A
condition that is missing is true of every row. -/
def Selects (before : List Value) (row : Record) : Option Predicate → Prop
  | none => True
  | some p => ∃ c, Condition.read (Token.ofText (p.text before.length)) = some c ∧
      c.truth row (before ++ p.values) = some true

theorem binds_append (before values : List Value) :
    Binds (before ++ values) before.length values := by
  intro i v hi
  rw [List.getElem?_append_right (Nat.le_add_right _ _), Nat.add_sub_cancel_left, hi]

theorem selects_some_iff {before : List Value} {p : Predicate} (h : p.Formed) :
    Selects before row (some p) ↔ p.Holds row := by
  have hread := Condition.read_eq (reads_tokens before.length h)
  rw [Selects, (open_text before.length h).ofText_eq, hread,
    ← truth_condition h (binds_append before p.values)]
  simp

end Predicate
end EventQuery
