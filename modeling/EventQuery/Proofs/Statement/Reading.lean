import EventQuery.Proofs.Request.Gate
import EventQuery.Proofs.Statement.Layout

/-!
# EventQuery.Proofs.Statement.Reading

Statements that fetch rows, read back from their text. `Statement.raw?` finds in the tokens which
columns are selected, from which table, under which condition and how many rows at most, where the
rows come newest first; it knows nothing of requests. `raw?_ofRequest` says what it finds in the
statement of a request that fetches rows.
-/

namespace EventQuery

/-- A statement that fetches rows, newest first. -/
structure Raw where
  /-- The names of the columns, or all. -/
  columns : Option (List String)
  table : String
  clause : Option Condition
  params : List Value
  cap : Int

namespace Token

/-- Names with commas between them. -/
def names? : List Token → Option (List String)
  | [name s] => some [s]
  | name s :: mark c :: rest => if c = ',' then (names? rest).map (s :: ·) else none
  | _ => none

/-- What is selected: a star for all columns, or names. -/
def columns? : List Token → Option (Option (List String))
  | [mark c] => if c = '*' then some none else none
  | ts => (names? ts).map some

def newestFirst : List Token :=
  [word "ORDER", word "BY", name Name.timestampColumn, word "DESC"]

end Token

namespace Statement

/-- Reads a statement that fetches rows. -/
def raw? (st : Statement) : Option Raw :=
  let ts := Token.ofText st.sql
  let columns := ts.tail.takeWhile (· != .word "FROM")
  let source := ts.dropWhile (· != .word "FROM")
  let ending := ts.dropWhile (· != .word "ORDER")
  if ts.head? = some (.word "SELECT") ∧ ending.take 5 = Token.newestFirst ++ [.word "LIMIT"] then
    match Token.columns? columns, source.tail, where? st.sql, ending.drop 5 with
    | some columns, .name table :: _, some clause, [.place digits] =>
      match (Operand.place digits).value [] st.params with
      | some (.int cap) => some ⟨columns, table, clause, st.params, cap⟩
      | _ => none
    | _, _, _, _ => none
  else none

end Statement

/-- Requests whose rows are fetched and not computed by the store. -/
def Request.FetchesRows (r : Request) : Prop :=
  r.archetype = .median ∨ r.archetype = .percentile ∨ r.archetype = .extraction ∨
    r.interval.isSome = true

/-- The columns that such a request needs: those asked for, the target alone, or all. -/
def Request.columns (r : Request) : Option (List String) :=
  match r.archetype with
  | .extraction => if r.targets.isEmpty then none else some r.targets
  | _ =>
    if r.interval.isSome || (present r.groupBy).isSome then none
    else (present r.target).map ([·])

namespace Statement

/-! ## What is selected -/

def nameTokens : List String → List Token
  | [] => []
  | [s] => [.name s]
  | s :: rest => .name s :: .mark ',' :: nameTokens rest

theorem columns?_nameTokens {names : List String} (h : names ≠ []) :
    Token.columns? (nameTokens names) = some (some names) := by
  have hnames (s : String) (rest : List String) :
      Token.names? (nameTokens (s :: rest)) = some (s :: rest) := by
    induction rest generalizing s with
    | nil => rfl
    | cons t rest ih => simp [nameTokens, Token.names?, ih]
  cases names with
  | nil => exact absurd rfl h
  | cons s rest =>
    cases rest with
    | nil => rfl
    | cons t rest =>
      show (Token.names? (nameTokens (s :: t :: rest))).map some = _
      rw [hnames]
      rfl

theorem quotedColumns_of_isProperty {names : List String}
    (h : ∀ s ∈ names, Name.isProperty s = true) :
    quotedColumns names = .ok (names.map Name.inQuotes) := by
  induction names with
  | nil => rfl
  | cons s rest ih =>
    rw [List.forall_mem_cons] at h
    rw [quotedColumns, Name.quotedColumn_of_isProperty h.1, ih h.2]
    rfl

theorem closed_nameTokens {names : List String} (h : ∀ s ∈ names, Name.isProperty s = true) :
    Token.Closed (", ".intercalate (names.map Name.inQuotes)) (nameTokens names) := by
  have hcomma : Token.Closed ", " [.mark ','] := fun _ => rfl
  induction names with
  | nil => exact fun _ => rfl
  | cons s rest ih =>
    rw [List.forall_mem_cons] at h
    have hfirst := Predicate.closed_column h.1
    cases rest with
    | nil => simpa [nameTokens] using hfirst
    | cons t rest =>
      rw [List.map_cons, List.map_cons, String.intercalate_cons_cons]
      exact (hfirst.append hcomma).append (ih h.2)

/-- A text that selects columns, newest first. -/
def SelectsColumns (names : Option (List String)) (o : Outcome Selection) : Prop :=
  ∃ text columns, o = .ok ⟨text, newestFirst⟩ ∧ Token.Closed text columns ∧
    Token.columns? columns = some names ∧ ∀ w, .word w ∉ columns

theorem selectsColumns_all : SelectsColumns none (.ok ⟨"*", newestFirst⟩) :=
  ⟨_, [.mark '*'], rfl, fun _ => rfl, rfl, by simp⟩

theorem word_not_mem_nameTokens (names : List String) (w : String) :
    .word w ∉ nameTokens names := by
  induction names with
  | nil => simp [nameTokens]
  | cons s rest ih =>
    cases rest with
    | nil => simp [nameTokens]
    | cons t rest => simpa [nameTokens] using ih

theorem selectsColumns_names {names : List String} (hne : names ≠ [])
    (h : ∀ s ∈ names, Name.isProperty s = true) :
    SelectsColumns (some names)
      (.ok ⟨", ".intercalate (names.map Name.inQuotes), newestFirst⟩) :=
  ⟨_, _, rfl, closed_nameTokens h, columns?_nameTokens hne, word_not_mem_nameTokens names⟩

theorem isProperty_present {name : Option String} (h : ∀ s ∈ name, Name.isProperty s = true) :
    ∀ s ∈ present name, Name.isProperty s = true := by
  intro s hs
  exact h s (Option.filter_eq_some_iff.mp hs).1

theorem rawSelection_eq {r : Request} (h : r.Accepted) :
    SelectsColumns (if r.interval.isSome || (present r.groupBy).isSome then none
      else (present r.target).map ([·])) (rawSelection r) := by
  unfold rawSelection optionalColumn
  split
  · exact selectsColumns_all
  · have htarget := isProperty_present h.target
    cases ht : present r.target with
    | none => exact selectsColumns_all
    | some s =>
      have hs : ∀ x ∈ [s], Name.isProperty x = true := by simpa using htarget s ht
      dsimp only
      rw [Name.quotedColumn_of_isProperty (htarget s ht)]
      show SelectsColumns (some [s]) (.ok ⟨Name.inQuotes s, newestFirst⟩)
      simpa using selectsColumns_names (by simp) hs

/-- A request that fetches rows selects its columns, newest first. -/
theorem selection_of_fetchesRows {r : Request} (hraw : r.FetchesRows) (h : r.Accepted) :
    SelectsColumns r.columns (selection r) := by
  by_cases hextraction : r.archetype = .extraction
  · simp only [selection, Request.columns, hextraction, extractionSelection]
    split
    · exact selectsColumns_all
    · rename_i hne
      rw [quotedColumns_of_isProperty h.targets]
      exact selectsColumns_names (by simpa using hne) h.targets
  · have hselection : selection r = rawSelection r := by
      unfold selection
      rcases hraw with hmedian | hpercentile | hextracts | hinterval
      · rw [hmedian]
      · rw [hpercentile]
      · exact absurd hextracts hextraction
      · rw [if_pos hinterval]
        split
        · exact absurd (by assumption) hextraction
        · rfl
        · rfl
        · rfl
    have hcolumns : r.columns = if r.interval.isSome || (present r.groupBy).isSome then none
        else (present r.target).map ([·]) := by
      unfold Request.columns
      split
      · exact absurd (by assumption) hextraction
      · rfl
    rw [hselection, hcolumns]
    exact rawSelection_eq h

/-! ## The whole statement -/

theorem open_newestFirst : Token.Open newestFirst Token.newestFirst := by
  have horder : Token.Closed " ORDER BY " [.word "ORDER", .word "BY"] := fun _ => rfl
  have hdesc : Token.Open " DESC" [.word "DESC"] := fun _ hrest =>
    Token.lex_breaks (k := .word) (by decide) hrest "DESC".toList
  exact (horder.append (Predicate.closed_column Name.isProperty_timestampColumn)).append_open hdesc

/-- The order of the rows comes after the conditions. -/
theorem dropWhile_order_layout {columns : List Token} {table : String} {ps : List Predicate}
    {cap : Nat} (hcolumns : .word "ORDER" ∉ columns) (hps : ∀ p ∈ ps, p.Formed) :
    (layout columns table ps Token.newestFirst cap).dropWhile (· != .word "ORDER")
      = Token.newestFirst ++ [.word "LIMIT", .place (toString cap)] := by
  have hfrom : .word "ORDER" ∉ [Token.word "FROM", .name table] := by simp
  have hconditions : .word "ORDER" ∉ Predicate.whereTokens ps :=
    Predicate.word_not_mem_whereTokens hps (by decide)
  rw [layout, List.cons_append, List.dropWhile_cons_of_pos (by simp),
    List.dropWhile_append_of_pos (bne_of_not_mem hcolumns), List.append_assoc, List.append_assoc,
    List.dropWhile_append_of_pos (bne_of_not_mem hfrom),
    List.dropWhile_append_of_pos (bne_of_not_mem hconditions)]
  simp [Token.newestFirst]

/-- The statement of a request that fetches rows is read as what the request asks for. -/
theorem raw?_ofRequest {r : Request} {ps : List Predicate} {st : Statement} (hraw : r.FetchesRows)
    (haccepted : r.Accepted) (hps : ∀ p ∈ ps, p.Formed) (h : ofRequest r ps = .ok st) :
    ∃ clause, where? st.sql = some clause ∧
      st.raw? = some ⟨r.columns, Name.tableName r.project r.collection, clause, st.params,
        r.latest⟩ := by
  obtain ⟨text, columns, hselection, htext, hcolumns, hwords⟩ :=
    selection_of_fetchesRows hraw haccepted
  obtain ⟨clause, hclause, _⟩ := where_ofRequest hps h
  have hbreaks : ∀ rest, Token.Breaks rest = true →
      Token.Breaks (newestFirst.toList ++ rest) = true := fun _ _ => rfl
  have htokens := ofText_ofRequest hps h hselection htext open_newestFirst hbreaks
  have hcap : (Operand.place (toString st.params.length)).value [] st.params
      = some (.int r.latest) := by
    rw [params_ofRequest h, List.length_append, List.length_singleton, Operand.value_place]
    simp
  refine ⟨clause, hclause, ?_⟩
  have hhead : (layout columns (Name.tableName r.project r.collection) ps Token.newestFirst
      st.params.length).head? = some (.word "SELECT") := rfl
  unfold raw?
  -- the three places where the reading cuts the tokens
  simp only [htokens, hhead, takeWhile_tail_layout (hwords "FROM"), dropWhile_layout (hwords "FROM"),
    dropWhile_order_layout (hwords "ORDER") hps, hcolumns, hclause]
  rw [if_pos ⟨trivial, rfl⟩]
  show (match (Operand.place (toString st.params.length)).value [] st.params with
    | some (.int cap) => some (⟨r.columns, _, clause, st.params, cap⟩ : Raw)
    | _ => none) = _
  rw [hcap]

end Statement
end EventQuery
