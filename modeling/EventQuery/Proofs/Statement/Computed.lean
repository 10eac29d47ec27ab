import EventQuery.Proofs.Statement.Reading

/-!
# EventQuery.Proofs.Statement.Computed

Statements whose values the store computes, read back from their text. `Statement.items?` finds in
the tokens what is selected: columns and aggregates, each under the label that its value comes
back with. `items?_ofRequest` says what it finds in the statement of a request whose rows are not
fetched (`Request.items`): the aggregate of the archetype under its label, after the grouping column
if there is one.
-/

namespace EventQuery

/-- What the store computes of one column. -/
inductive Aggregate where
  | least | greatest | total | mean
  /-- The number of distinct values. -/
  | tally
  /-- The distinct values. -/
  | members
  deriving DecidableEq

namespace Aggregate

/-- The call of an aggregate, up to its column. -/
def text : Aggregate → String
  | least => "MIN("
  | greatest => "MAX("
  | total => "SUM("
  | mean => "AVG("
  | tally => "COUNT(DISTINCT "
  | members => "ARRAY_AGG(DISTINCT "

def opening : Aggregate → List Token
  | least => [.word "MIN", .mark '(']
  | greatest => [.word "MAX", .mark '(']
  | total => [.word "SUM", .mark '(']
  | mean => [.word "AVG", .mark '(']
  | tally => [.word "COUNT", .mark '(', .word "DISTINCT"]
  | members => [.word "ARRAY_AGG", .mark '(', .word "DISTINCT"]

theorem closed_text (f : Aggregate) : Token.Closed f.text f.opening := by
  cases f <;> exact fun _ => rfl

def ofWord? (w : String) : Option Aggregate :=
  if w = "MIN" then some least
  else if w = "MAX" then some greatest
  else if w = "SUM" then some total
  else if w = "AVG" then some mean
  else none

def ofDistinct? (w : String) : Option Aggregate :=
  if w = "COUNT" then some tally else if w = "ARRAY_AGG" then some members else none

end Aggregate

inductive Expression where
  | column (name : String)
  /-- The number of rows. -/
  | rows
  | aggregate (f : Aggregate) (column : String)
  deriving DecidableEq

/-- A value of each row that comes back. -/
structure Item where
  expression : Expression
  label : String
  deriving DecidableEq

namespace Item

/-- A column is its own label. -/
def ofColumn (name : String) : Item := ⟨.column name, name⟩

/-- The tokens of an item. -/
def tokens : Item → List Token
  | ⟨.column c, _⟩ => [.name c]
  | ⟨.rows, label⟩ =>
    [.word "COUNT", .mark '('] ++ [.mark '*', .mark ')'] ++ [.word "AS", .name label]
  | ⟨.aggregate f c, label⟩ => f.opening ++ [.name c, .mark ')'] ++ [.word "AS", .name label]

theorem tokens_ofColumn (name : String) : (ofColumn name).tokens = [.name name] := rfl

/-- Reads an item: a column, or an aggregate with a label. -/
def read? : List Token → Option Item
  | [.name c] => some (ofColumn c)
  | [.word f, .mark '(', .mark '*', .mark ')', .word "AS", .name label] =>
    if f = "COUNT" then some ⟨.rows, label⟩ else none
  | [.word f, .mark '(', .name c, .mark ')', .word "AS", .name label] =>
    (Aggregate.ofWord? f).map fun g => ⟨.aggregate g c, label⟩
  | [.word f, .mark '(', .word "DISTINCT", .name c, .mark ')', .word "AS", .name label] =>
    (Aggregate.ofDistinct? f).map fun g => ⟨.aggregate g c, label⟩
  | _ => none

theorem read?_tokens {item : Item} (h : ∀ c, item.expression = .column c → item.label = c) :
    read? item.tokens = some item := by
  obtain ⟨expression, label⟩ := item
  cases expression with
  | column c =>
    have hlabel : label = c := h c rfl
    rw [hlabel]
    rfl
  | rows => rfl
  | aggregate f c => cases f <;> rfl

theorem mapM_read? {items : List Item} (h : ∀ item ∈ items, read? item.tokens = some item) :
    (items.map tokens).mapM read? = some items := by
  induction items with
  | nil => rfl
  | cons item rest ih =>
    rw [List.forall_mem_cons] at h
    rw [List.map_cons, List.mapM_cons, h.1, ih h.2]
    rfl

/-- No item holds what separates items or what ends them. -/
theorem separators_not_mem_tokens (item : Item) :
    .mark ',' ∉ item.tokens ∧ .word "FROM" ∉ item.tokens := by
  obtain ⟨expression, label⟩ := item
  cases expression with
  | column c => simp [tokens]
  | rows => simp [tokens]
  | aggregate f c => cases f <;> simp [tokens, Aggregate.opening]

end Item

namespace Statement

/-- What a statement selects, item by item. -/
def items? (sql : String) : Option (List Item) :=
  (((Token.ofText sql).tail.takeWhile (· != .word "FROM")).splitOn (.mark ',')).mapM Item.read?

end Statement

/-- The aggregates that have a label of their own. -/
def Archetype.aggregated? : Archetype → Option (Aggregate × String)
  | minimum => some (.least, "min")
  | maximum => some (.greatest, "max")
  | sum => some (.total, "sum")
  | average => some (.mean, "avg")
  | countUnique => some (.tally, "count")
  | _ => none

/-- The store computes what is neither returned under a name of its own, nor an extraction, nor
split by intervals. -/
theorem Request.not_fetchesRows {r : Request} (hname : r.archetype.resultName? = none)
    (hextraction : r.archetype ≠ .extraction) (hinterval : r.interval = none) :
    ¬r.FetchesRows := by
  rintro (ha | ha | ha | hi)
  · rw [ha] at hname
    cases hname
  · rw [ha] at hname
    cases hname
  · exact hextraction ha
  · rw [hinterval] at hi
    cases hi

/-- What the store computes for a request whose rows are not fetched. -/
def Request.computed (r : Request) : Item :=
  let column := r.target.getD ""
  match r.archetype with
  | .selectUnique => ⟨.aggregate .members column, column⟩
  | a =>
    match a.aggregated? with
    | some (f, label) => ⟨.aggregate f column, label⟩
    | none => ⟨.rows, "count"⟩

/-- What the statement of such a request selects. -/
def Request.items (r : Request) : List Item :=
  (present r.groupBy).toList.map .ofColumn ++ [r.computed]

namespace Request

variable {r : Request} {c label : String} {f : Aggregate}

theorem computed_of_selectUnique (ha : r.archetype = .selectUnique) (hc : r.target = some c) :
    r.computed = ⟨.aggregate .members c, c⟩ := by
  simp only [computed, ha, hc, Option.getD_some]

theorem computed_of_aggregated (ha : r.archetype.aggregated? = some (f, label))
    (hc : r.target = some c) : r.computed = ⟨.aggregate f c, label⟩ := by
  unfold computed
  split
  · rename_i hunique
    rw [hunique] at ha
    cases ha
  · rw [ha, hc]
    rfl

theorem computed_of_count (ha : r.archetype = .count) : r.computed = ⟨.rows, "count"⟩ := by
  simp only [computed, ha, Archetype.aggregated?]

/-- The store counts rows, or computes something of the target. -/
theorem computed_cases (hraw : ¬r.FetchesRows)
    (htarget : r.archetype ≠ .count → ∃ t ∈ r.target, Name.isProperty t = true) :
    r.archetype = .count ∨ ∃ c ∈ r.target, r.archetype = .selectUnique ∨
      ∃ f label, r.archetype.aggregated? = some (f, label) := by
  by_cases hcount : r.archetype = .count
  · exact .inl hcount
  · obtain ⟨c, hc, _⟩ := htarget hcount
    refine .inr ⟨c, hc, ?_⟩
    cases ha : r.archetype with
    | count => exact absurd ha hcount
    | median => exact absurd (.inl ha) hraw
    | percentile => exact absurd (.inr (.inl ha)) hraw
    | extraction => exact absurd (.inr (.inr (.inl ha))) hraw
    | selectUnique => exact .inl rfl
    | _ => exact .inr ⟨_, _, rfl⟩

end Request

namespace Statement

open Token

/-! ## One item -/

/-- The same as text; the name of the result is a property or one of the store's own. -/
theorem closed_call {before column quoted name : String} {opening : List Token} {x : Token}
    (hbefore : Closed before opening) (hcolumn : Closed column [x])
    (hquoted : Closed quoted [.name name]) :
    Closed (before ++ column ++ ")" ++ " AS " ++ quoted)
      (opening ++ [x, .mark ')'] ++ [.word "AS", .name name]) := by
  have hclose : Closed ")" [.mark ')'] := fun _ => rfl
  have has : Closed " AS " [.word "AS"] := fun _ => rfl
  simpa using (((hbefore.append hcolumn).append hclose).append has).append hquoted

theorem optionalColumn_of_isProperty {name : String} (h : Name.isProperty name = true) :
    optionalColumn (some name) = .ok (some (Name.inQuotes name)) := by
  rw [optionalColumn, present_of_isProperty h]
  dsimp only
  rw [Name.quotedColumn_of_isProperty h]
  rfl

theorem closed_aggregate {label c : String} (f : Aggregate) (hc : Name.isProperty c = true)
    (hlabel : Closed (Name.inQuotes label) [.name label]) :
    Closed (f.text ++ Name.inQuotes c ++ ")" ++ " AS " ++ Name.inQuotes label)
      (Item.tokens ⟨.aggregate f c, label⟩) :=
  closed_call f.closed_text (Predicate.closed_column hc) hlabel

theorem aggregate_of_aggregated {a : Archetype} {f : Aggregate} {label : String}
    (h : a.aggregated? = some (f, label)) :
    (∀ column, a.aggregate column = (f.text ++ column ++ ")", label)) ∧
      Closed (Name.inQuotes label) [.name label] := by
  cases a <;> cases h <;> exact ⟨fun _ => rfl, fun _ => rfl⟩

theorem aggregateText_of_count {r : Request} (ha : r.archetype = .count) (h : r.Accepted) :
    ∃ text, aggregateText r = .ok text ∧ Closed text r.computed.tokens := by
  -- the rows are counted, whatever the target
  obtain ⟨column, hcolumn⟩ : ∃ column, optionalColumn r.target = .ok column := by
    cases ht : r.target with
    | none => exact ⟨none, rfl⟩
    | some t => exact ⟨_, optionalColumn_of_isProperty (h.target t ht)⟩
  have hcount : Closed ("COUNT(*)" ++ " AS " ++ Name.inQuotes "count")
      (Item.tokens ⟨.rows, "count"⟩) := fun _ => rfl
  refine ⟨_, ?_, Request.computed_of_count ha ▸ hcount⟩
  simp only [aggregateText, ha, hcolumn]
  rfl

theorem aggregateText_of_selectUnique {r : Request} {t : String} (ha : r.archetype = .selectUnique)
    (ht : r.target = some t) (h : r.Accepted) :
    ∃ text, aggregateText r = .ok text ∧ Closed text r.computed.tokens := by
  have hproperty := h.target t ht
  have hclosed := closed_aggregate .members hproperty (Predicate.closed_column hproperty)
  refine ⟨_, ?_, Request.computed_of_selectUnique ha ht ▸ hclosed⟩
  simp only [aggregateText, ha, ht, Value.ofText?, Name.quotedColumn_of_isProperty hproperty]
  simp [Except.map, Aggregate.text, String.append_assoc]

theorem aggregateText_of_aggregated {r : Request} {t label : String} {f : Aggregate}
    (ha : r.archetype.aggregated? = some (f, label)) (ht : r.target = some t) (h : r.Accepted) :
    ∃ text, aggregateText r = .ok text ∧ Closed text r.computed.tokens := by
  have hproperty := h.target t ht
  obtain ⟨haggregate, hlabel⟩ := aggregate_of_aggregated ha
  have hclosed := closed_aggregate f hproperty hlabel
  refine ⟨_, ?_, Request.computed_of_aggregated ha ht ▸ hclosed⟩
  unfold aggregateText
  split
  · rename_i hunique
    rw [hunique] at ha
    cases ha
  · rw [ht, optionalColumn_of_isProperty hproperty]
    simp only [Except.map, Option.getD_some, haggregate]

/-- A request whose rows are not fetched computes one value, under its label. -/
theorem aggregateText_eq {r : Request} (hraw : ¬r.FetchesRows)
    (htarget : r.archetype ≠ .count → ∃ t ∈ r.target, Name.isProperty t = true) (h : r.Accepted) :
    ∃ text, aggregateText r = .ok text ∧ Closed text r.computed.tokens := by
  rcases Request.computed_cases hraw htarget with ha | ⟨c, hc, ha | ⟨f, label, ha⟩⟩
  · exact aggregateText_of_count ha h
  · exact aggregateText_of_selectUnique ha hc h
  · exact aggregateText_of_aggregated ha hc h

/-! ## The whole selection -/

theorem selection_of_not_fetchesRows {r : Request} (hraw : ¬r.FetchesRows) :
    selection r = aggregateSelection r := by
  unfold selection
  split
  · rename_i ha
    exact absurd (.inr (.inr (.inl ha))) hraw
  · rename_i ha
    exact absurd (.inl ha) hraw
  · rename_i ha
    exact absurd (.inr (.inl ha)) hraw
  · rw [if_neg fun hinterval => hraw (.inr (.inr (.inr hinterval)))]

theorem selection_items {r : Request} (hraw : ¬r.FetchesRows)
    (htarget : r.archetype ≠ .count → ∃ t ∈ r.target, Name.isProperty t = true) (h : r.Accepted) :
    ∃ x, selection r = .ok x ∧
      Closed x.columns ([.mark ','].intercalate (r.items.map Item.tokens)) := by
  obtain ⟨aggregate, haggregate, hclosed⟩ := aggregateText_eq hraw htarget h
  rw [selection_of_not_fetchesRows hraw, aggregateSelection, haggregate]
  dsimp only
  unfold Request.items optionalColumn
  cases hgroup : present r.groupBy with
  | none => exact ⟨_, rfl, by simpa using hclosed⟩
  | some g =>
    have hproperty := isProperty_present h.groupBy g hgroup
    have hcomma : Closed ", " [.mark ','] := fun _ => rfl
    dsimp only
    rw [Name.quotedColumn_of_isProperty hproperty]
    refine ⟨_, rfl, ?_⟩
    simpa [Item.tokens_ofColumn] using
      ((Predicate.closed_column hproperty).append hcomma).append hclosed

theorem read?_items {r : Request} (hraw : ¬r.FetchesRows)
    (htarget : r.archetype ≠ .count → ∃ t ∈ r.target, Name.isProperty t = true) :
    ∀ item ∈ r.items, Item.read? item.tokens = some item := by
  rw [Request.items, List.forall_mem_append, List.forall_mem_singleton]
  constructor
  · intro item hitem
    obtain ⟨g, _, rfl⟩ := List.mem_map.mp hitem
    rfl
  · refine Item.read?_tokens fun c hcolumn => ?_
    rcases Request.computed_cases hraw htarget with ha | ⟨t, ht, ha | ⟨f, label, ha⟩⟩
    · rw [Request.computed_of_count ha] at hcolumn
      cases hcolumn
    · rw [Request.computed_of_selectUnique ha ht] at hcolumn
      cases hcolumn
    · rw [Request.computed_of_aggregated ha ht] at hcolumn
      cases hcolumn

/-- The statement of a request that fetches no rows selects the grouping column and what is
computed. -/
theorem items?_ofRequest {r : Request} {ps : List Predicate} {st : Statement}
    (hraw : ¬r.FetchesRows)
    (htarget : r.archetype ≠ .count → ∃ t ∈ r.target, Name.isProperty t = true)
    (haccepted : r.Accepted) (hps : ∀ p ∈ ps, p.Formed) (h : ofRequest r ps = .ok st) :
    items? st.sql = some r.items := by
  obtain ⟨x, hx, hclosed⟩ := selection_items hraw htarget haccepted
  obtain ⟨_, tail, htail, _, hbreaks, _⟩ := selection_eq_ok hx
  have hfrom : .word "FROM" ∉ [Token.mark ','].intercalate (r.items.map Item.tokens) := by
    intro hmem
    rcases mem_intercalate hmem with hcomma | ⟨ts, hts, hmem⟩
    · simp at hcomma
    · obtain ⟨item, _, rfl⟩ := List.mem_map.mp hts
      exact item.separators_not_mem_tokens.2 hmem
  have hcommas : ∀ ts ∈ r.items.map Item.tokens, Token.mark ',' ∉ ts := by
    intro ts hts
    obtain ⟨item, _, rfl⟩ := List.mem_map.mp hts
    exact item.separators_not_mem_tokens.1
  rw [items?, ofText_ofRequest hps h hx hclosed htail hbreaks, takeWhile_tail_layout hfrom,
    List.splitOn_intercalate _ hcommas (by simp [Request.items]),
    Item.mapM_read? (read?_items hraw htarget)]

end Statement
end EventQuery
