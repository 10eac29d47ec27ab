import EventQuery.Proofs.Outcome
import EventQuery.Proofs.Statement.Where
import EventQuery.Statement.Query

/-!
# EventQuery.Proofs.Statement.Selection

What a statement selects, and the clause after WHERE, as tokens. `selection_eq_ok` says what they
can be: names of columns and results, words and marks, with no placeholder, no WHERE and no FROM
among them, whatever the texts of the request hold.
-/

namespace EventQuery

/-- The names that a statement gives to what it computes. -/
def resultNames : List String := ["count", "min", "max", "sum", "avg"]

/-- What may stand in double quotes: an accepted property, the table of an accepted project and
an accepted collection, or a result. -/
inductive Quotable : String → Prop where
  | column {s : String} : Name.property "column" (.text s) = .ok s → Quotable s
  | table {p c : String} : Name.flat "project id" (.text p) = .ok p →
      Name.flat "event collection" (.text c) = .ok c → Quotable (Name.tableName p c)
  | result {s : String} : s ∈ resultNames → Quotable s

theorem quotable_of_isProperty {s : String} (h : Name.isProperty s = true) : Quotable s :=
  .column (Name.property_of_isProperty "column" h)

/-- The tokens outside of the WHERE clause, the row cap and the table apart: columns and results
are the only names. -/
def Token.InSelection : Token → Prop
  | .name s => Name.isProperty s = true ∨ s ∈ resultNames
  | .unclosed _ => False
  | .place _ => False
  | .word w => w ≠ "WHERE" ∧ w ≠ "FROM"
  | _ => True

/-- No double quote is left open, and what stands between two of them is `Quotable`. -/
def Token.IsSafe : Token → Prop
  | .name s => Quotable s
  | .unclosed _ => False
  | _ => True

/-- The words that begin the clauses after WHERE. -/
def clauseWords : List String := ["GROUP", "ORDER", "LIMIT"]

namespace Statement

/-! ## Pieces of a selection -/

/-- A piece of what is selected; none of its tokens goes on into the next piece. -/
def Selects (s : String) : Prop := ∃ ts, Token.Closed s ts ∧ ∀ t ∈ ts, t.InSelection

variable {s t : String}

theorem Selects.append (hs : Selects s) (ht : Selects t) : Selects (s ++ t) := by
  obtain ⟨ts, hts, hins⟩ := hs
  obtain ⟨us, hus, hinu⟩ := ht
  exact ⟨ts ++ us, hts.append hus, fun x hx => (List.mem_append.mp hx).elim (hins x) (hinu x)⟩

theorem selects_inQuotes (h : Name.isProperty s = true ∨ s ∈ resultNames)
    (hquote : '"' ∉ s.toList) : Selects (Name.inQuotes s) :=
  ⟨[.name s], Token.closed_inQuotes hquote, by simpa [Token.InSelection] using h⟩

theorem selects_result (h : s ∈ resultNames) : Selects (Name.inQuotes s) := by
  refine selects_inQuotes (.inr h) ?_
  revert s
  decide

theorem selects_property (h : Name.isProperty s = true) : Selects (Name.inQuotes s) :=
  selects_inQuotes (.inl h) (Name.quote_not_mem_property h)

theorem selects_column {v : Value} {q : String} (h : Name.quotedColumn v = .ok q) :
    Selects q := by
  obtain ⟨s, rfl, hs⟩ := Name.quotedColumn_eq_ok h
  exact selects_property (Name.property_eq_ok hs).2

theorem selects_optionalColumn {name o : Option String} (h : optionalColumn name = .ok o)
    {default : String} (hdefault : Selects default) : Selects (o.getD default) := by
  unfold optionalColumn at h
  split at h
  · cases h
    exact hdefault
  · obtain ⟨q, hq, rfl⟩ := Outcome.map_eq_ok h
    exact selects_column hq

theorem selects_empty : Selects "" := ⟨[], fun _ => rfl, by simp⟩

theorem selects_star : Selects "*" :=
  ⟨[.mark '*'], fun _ => rfl, by simp [Token.InSelection]⟩

theorem selects_comma : Selects ", " :=
  ⟨[.mark ','], fun _ => rfl, by simp [Token.InSelection]⟩

theorem selects_close : Selects ")" :=
  ⟨[.mark ')'], fun _ => rfl, by simp [Token.InSelection]⟩

theorem selects_as : Selects " AS " :=
  ⟨[.word "AS"], fun _ => rfl, by simp [Token.InSelection]⟩

theorem selects_columns {names columns : List String} (h : quotedColumns names = .ok columns) :
    Selects (", ".intercalate columns) := by
  induction names generalizing columns with
  | nil =>
    cases h
    exact selects_empty
  | cons name rest ih =>
    unfold quotedColumns at h
    split at h
    · cases h
    · rename_i column hcolumn
      split at h
      · cases h
      · rename_i columns hcolumns
        cases h
        have hfirst := selects_column hcolumn
        cases columns with
        | nil => simpa using hfirst
        | cons =>
          rw [String.intercalate_cons_cons]
          exact (hfirst.append selects_comma).append (ih hcolumns)

/-! ## What is selected -/

theorem aggregate_mem_resultNames (a : Archetype) (column : String) :
    (a.aggregate column).2 ∈ resultNames := by
  cases a with
  | minimum => show "min" ∈ resultNames; decide
  | maximum => show "max" ∈ resultNames; decide
  | sum => show "sum" ∈ resultNames; decide
  | average => show "avg" ∈ resultNames; decide
  | _ => show "count" ∈ resultNames; decide

theorem selects_aggregate (a : Archetype) {column : String} (h : Selects column) :
    Selects (a.aggregate column).1 := by
  have hmin : Selects "MIN(" :=
    ⟨[.word "MIN", .mark '('], fun _ => rfl, by simp [Token.InSelection]⟩
  have hmax : Selects "MAX(" :=
    ⟨[.word "MAX", .mark '('], fun _ => rfl, by simp [Token.InSelection]⟩
  have hsum : Selects "SUM(" :=
    ⟨[.word "SUM", .mark '('], fun _ => rfl, by simp [Token.InSelection]⟩
  have havg : Selects "AVG(" :=
    ⟨[.word "AVG", .mark '('], fun _ => rfl, by simp [Token.InSelection]⟩
  have hunique : Selects "COUNT(DISTINCT " :=
    ⟨[.word "COUNT", .mark '(', .word "DISTINCT"], fun _ => rfl, by simp [Token.InSelection]⟩
  have hcount : Selects "COUNT(*)" :=
    ⟨[.word "COUNT", .mark '(', .mark '*', .mark ')'], fun _ => rfl,
      by simp [Token.InSelection]⟩
  cases a with
  | minimum => exact (hmin.append h).append selects_close
  | maximum => exact (hmax.append h).append selects_close
  | sum => exact (hsum.append h).append selects_close
  | average => exact (havg.append h).append selects_close
  | countUnique => exact (hunique.append h).append selects_close
  | _ => exact hcount

theorem selects_aggregateText {r : Request} (h : aggregateText r = .ok s) : Selects s := by
  have harray : Selects "ARRAY_AGG(DISTINCT " :=
    ⟨[.word "ARRAY_AGG", .mark '(', .word "DISTINCT"], fun _ => rfl, by simp [Token.InSelection]⟩
  unfold aggregateText at h
  split at h
  · obtain ⟨target, htarget, rfl⟩ := Outcome.map_eq_ok h
    have hcolumn := selects_column htarget
    have hcall := (harray.append hcolumn).append selects_close
    have htext := (hcall.append selects_as).append hcolumn
    simpa [String.append_assoc] using htext
  · obtain ⟨target, htarget, rfl⟩ := Outcome.map_eq_ok h
    have hexpression := selects_aggregate r.archetype (selects_optionalColumn htarget selects_empty)
    exact (hexpression.append selects_as).append (selects_result (aggregate_mem_resultNames _ _))

/-- What may come between the WHERE clause and the row cap: nothing, or a clause of its own. -/
def Trails (s : String) (ts : List Token) : Prop :=
  Token.Open s ts ∧ (∀ t ∈ ts, t.InSelection) ∧
    (∀ rest, Token.Breaks rest = true → Token.Breaks (s.toList ++ rest) = true) ∧
    (ts = [] ∨ ∃ w rest, ts = .word w :: rest ∧ w ∈ clauseWords)

theorem trails_empty : Trails "" [] :=
  ⟨Token.open_empty, by simp, fun _ h => h, .inl rfl⟩

theorem trails_newestFirst : ∃ ts, Trails newestFirst ts := by
  obtain ⟨ts, hts, hin⟩ := selects_property Name.isProperty_timestampColumn
  have horder : Token.Closed " ORDER BY " [.word "ORDER", .word "BY"] := fun _ => rfl
  have hdesc : Token.Open " DESC" [.word "DESC"] := fun _ hrest =>
    Token.lex_breaks (k := .word) (by decide) hrest "DESC".toList
  refine ⟨_, (horder.append hts).append_open hdesc, ?_, fun _ _ => rfl,
    .inr ⟨"ORDER", _, rfl, by decide⟩⟩
  simpa [Token.InSelection, or_imp, forall_and] using hin

theorem trails_groupBy (h : Selects s) : ∃ ts, Trails (" GROUP BY " ++ s) ts := by
  obtain ⟨ts, hts, hin⟩ := h
  have hgroup : Token.Closed " GROUP BY " [.word "GROUP", .word "BY"] := fun _ => rfl
  refine ⟨_, (hgroup.append hts).open, ?_, fun _ _ => ?_, .inr ⟨"GROUP", _, rfl, by decide⟩⟩
  · simpa [Token.InSelection] using hin
  · rw [String.toList_append]
    rfl

theorem selection_eq_ok {r : Request} {x : Selection} (h : selection r = .ok x) :
    Selects x.columns ∧ ∃ ts, Trails x.tail ts := by
  have hraw (h : rawSelection r = .ok x) : Selects x.columns ∧ ∃ ts, Trails x.tail ts := by
    unfold rawSelection at h
    split at h
    · cases h
      exact ⟨selects_star, trails_newestFirst⟩
    · obtain ⟨target, htarget, rfl⟩ := Outcome.map_eq_ok h
      exact ⟨selects_optionalColumn htarget selects_star, trails_newestFirst⟩
  unfold selection at h
  split at h
  · unfold extractionSelection at h
    split at h
    · cases h
      exact ⟨selects_star, trails_newestFirst⟩
    · obtain ⟨columns, hcolumns, rfl⟩ := Outcome.map_eq_ok h
      exact ⟨selects_columns hcolumns, trails_newestFirst⟩
  · exact hraw h
  · exact hraw h
  · split at h
    · exact hraw h
    · unfold aggregateSelection at h
      split at h
      · cases h
      · rename_i aggregate haggregate
        have htext := selects_aggregateText haggregate
        obtain ⟨column, hcolumn, rfl⟩ := Outcome.map_eq_ok h
        have hgroup := selects_optionalColumn hcolumn selects_empty
        cases column with
        | none => exact ⟨htext, _, trails_empty⟩
        | some column => exact ⟨(hgroup.append selects_comma).append htext, trails_groupBy hgroup⟩

end Statement
end EventQuery
