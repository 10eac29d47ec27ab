import EventQuery.Proofs.Statement.Selection
import Mathlib.Data.List.TakeWhile

/-!
# EventQuery.Proofs.Statement.Layout

The statement of a request as tokens: what is selected, the table, the WHERE clause, what comes
after it and the row cap. `layout_ofRequest` finds this layout behind every statement that is
built, and from it what the whole text is shown to be:

* `isSafe_ofRequest`: its double quotes are closed, with accepted names between them;
* `places_ofRequest`: its placeholders are numbered from left to right, one for each value;
* `where_ofRequest`: its WHERE clause reads as the conditions that it was built from.
-/

namespace EventQuery
namespace Statement

/-! ## The whole statement -/

/-- The tokens of a statement. -/
def layout (columns : List Token) (table : String) (ps : List Predicate) (tail : List Token)
    (cap : Nat) : List Token :=
  .word "SELECT" :: columns ++ ([.word "FROM", .name table] ++ Predicate.whereTokens ps ++ tail
    ++ [.word "LIMIT", .place (toString cap)])

theorem bne_of_not_mem {t : Token} {ts : List Token} (h : t ∉ ts) : ∀ x ∈ ts, (x != t) = true := by
  intro x hx
  rw [bne_iff_ne]
  rintro rfl
  exact h hx

theorem takeWhile_tail_layout {columns tail : List Token} {table : String} {ps : List Predicate}
    {cap : Nat} (h : .word "FROM" ∉ columns) :
    (layout columns table ps tail cap).tail.takeWhile (· != .word "FROM") = columns := by
  rw [layout, List.cons_append, List.tail_cons, List.takeWhile_append_of_pos (bne_of_not_mem h)]
  simp

/-- The table stands right after FROM. -/
theorem dropWhile_layout {columns tail : List Token} {table : String} {ps : List Predicate}
    {cap : Nat} (h : .word "FROM" ∉ columns) :
    (layout columns table ps tail cap).dropWhile (· != .word "FROM")
      = .word "FROM" :: .name table :: (Predicate.whereTokens ps ++ tail
        ++ [.word "LIMIT", .place (toString cap)]) := by
  rw [layout, List.cons_append, List.dropWhile_cons_of_pos (by simp),
    List.dropWhile_append_of_pos (bne_of_not_mem h)]
  simp

theorem ofRequest_eq_ok {r : Request} {ps : List Predicate} {st : Statement}
    (h : ofRequest r ps = .ok st) :
    ∃ table x, Name.quotedTable (.text r.project) (.text r.collection) = .ok table ∧
      selection r = .ok x ∧
      st = ⟨"SELECT " ++ x.columns ++ " FROM " ++ table
          ++ whereClause ((Predicate.texts 0 ps).map some) ++ x.tail
          ++ " LIMIT " ++ placeholder ((ps.flatMap (·.values)).length + 1),
        ps.flatMap (·.values) ++ [.int r.latest]⟩ := by
  unfold ofRequest ofTexts at h
  split at h
  · cases h
  · rename_i table htable
    obtain ⟨x, hx, rfl⟩ := Outcome.map_eq_ok h
    exact ⟨table, x, htable, hx, rfl⟩

theorem params_ofRequest {r : Request} {ps : List Predicate} {st : Statement}
    (h : ofRequest r ps = .ok st) : st.params = ps.flatMap (·.values) ++ [.int r.latest] := by
  obtain ⟨_, _, _, _, rfl⟩ := ofRequest_eq_ok h
  rfl

/-- The text of a statement is read as its layout, once its pieces are read. -/
theorem ofText_ofRequest {r : Request} {ps : List Predicate} {st : Statement} {x : Selection}
    {columns tail : List Token} (hps : ∀ p ∈ ps, p.Formed) (h : ofRequest r ps = .ok st)
    (hx : selection r = .ok x) (hcolumns : Token.Closed x.columns columns)
    (htail : Token.Open x.tail tail)
    (hbreaks : ∀ rest, Token.Breaks rest = true → Token.Breaks (x.tail.toList ++ rest) = true) :
    Token.ofText st.sql
      = layout columns (Name.tableName r.project r.collection) ps tail st.params.length := by
  obtain ⟨quoted, x', htable, hx', rfl⟩ := ofRequest_eq_ok h
  cases hx.symm.trans hx'
  obtain ⟨p, c, rfl, hp, hc⟩ := Name.quotedTable_eq_ok htable
  obtain ⟨hpt, hpf⟩ := Name.flat_eq_ok hp
  obtain ⟨hct, hcf⟩ := Name.flat_eq_ok hc
  cases hpt
  cases hct
  -- only the WHERE clause and what follows it can run on, and each of them is followed by a blank
  have hselect : Token.Closed "SELECT " [.word "SELECT"] := fun _ => rfl
  have hfrom : Token.Closed " FROM " [.word "FROM"] := fun _ => rfl
  have hlimit : Token.Closed " LIMIT " [.word "LIMIT"] := fun _ => rfl
  have hquoted := Token.closed_inQuotes (Name.quote_not_mem_tableName hpf hcf)
  have hclause := Predicate.open_whereClause hps
  have hhead := (((hselect.append hcolumns).append hfrom).append hquoted).append_open hclause
  have hcap := ((hhead.append htail hbreaks).append_closed hlimit fun _ => rfl).append_open
    (Token.open_placeholder ((ps.flatMap (·.values)).length + 1))
  rw [hcap.ofText_eq]
  simp [layout]

/-- A statement reads the one table of the collection of its request. -/
theorem layout_table_ofRequest {r : Request} {ps : List Predicate} {st : Statement}
    (hps : ∀ p ∈ ps, p.Formed) (h : ofRequest r ps = .ok st) :
    ∃ columns tail,
      Token.ofText st.sql
        = layout columns (Name.tableName r.project r.collection) ps tail st.params.length ∧
      (∀ t ∈ columns, t.InSelection) ∧ (∀ t ∈ tail, t.InSelection) ∧
      (tail = [] ∨ ∃ w rest, tail = .word w :: rest ∧ w ∈ clauseWords) := by
  obtain ⟨_, x, _, hx, _⟩ := ofRequest_eq_ok h
  obtain ⟨⟨columns, hcolumns, hin⟩, tail, htail, hintail, hbreaks, hwords⟩ := selection_eq_ok hx
  exact ⟨columns, tail, ofText_ofRequest hps h hx hcolumns htail hbreaks, hin, hintail, hwords⟩

theorem quotable_table {r : Request} {ps : List Predicate} {st : Statement}
    (h : ofRequest r ps = .ok st) : Quotable (Name.tableName r.project r.collection) := by
  obtain ⟨quoted, _, htable, _, _⟩ := ofRequest_eq_ok h
  obtain ⟨p, c, _, hp, hc⟩ := Name.quotedTable_eq_ok htable
  cases (Name.flat_eq_ok hp).1
  cases (Name.flat_eq_ok hc).1
  exact .table hp hc

theorem layout_ofRequest {r : Request} {ps : List Predicate} {st : Statement}
    (hps : ∀ p ∈ ps, p.Formed) (h : ofRequest r ps = .ok st) :
    ∃ columns table tail,
      Token.ofText st.sql = layout columns table ps tail st.params.length ∧
      Quotable table ∧ (∀ t ∈ columns, t.InSelection) ∧ (∀ t ∈ tail, t.InSelection) ∧
      (tail = [] ∨ ∃ w rest, tail = .word w :: rest ∧ w ∈ clauseWords) := by
  obtain ⟨columns, tail, hsql, hcolumns, htail, hwords⟩ := layout_table_ofRequest hps h
  exact ⟨columns, _, tail, hsql, quotable_table h, hcolumns, htail, hwords⟩

/-! ## Names, placeholders and the WHERE clause -/

theorem isSafe_of_inSelection {t : Token} (h : t.InSelection) : t.IsSafe := by
  cases t with
  | name s => exact h.elim quotable_of_isProperty .result
  | unclosed s => exact h
  | _ => trivial

theorem isSafe_of_inCondition {t : Token} (h : t.InCondition) : t.IsSafe := by
  cases t <;> first | exact quotable_of_isProperty h | exact h | trivial

theorem isSafe_whereTokens {ps : List Predicate} (hps : ∀ p ∈ ps, p.Formed) :
    ∀ t ∈ Predicate.whereTokens ps, t.IsSafe := by
  intro t ht
  rcases Predicate.inCondition_whereTokens hps t ht with rfl | hin
  · trivial
  · exact isSafe_of_inCondition hin

theorem isSafe_ofRequest {r : Request} {ps : List Predicate} {st : Statement}
    (hps : ∀ p ∈ ps, p.Formed) (h : ofRequest r ps = .ok st) :
    ∀ t ∈ Token.ofText st.sql, t.IsSafe := by
  obtain ⟨columns, table, tail, hsql, htable, hcolumns, htail, _⟩ := layout_ofRequest hps h
  have hfrom : ∀ t ∈ [Token.word "FROM", .name table], t.IsSafe := by
    simpa [Token.IsSafe] using htable
  have hcap : ∀ t ∈ [Token.word "LIMIT", .place (toString st.params.length)], t.IsSafe := by
    simp [Token.IsSafe]
  rw [hsql, layout, List.forall_mem_append, List.forall_mem_append, List.forall_mem_append,
    List.forall_mem_append, List.forall_mem_cons]
  exact ⟨⟨trivial, fun t ht => isSafe_of_inSelection (hcolumns t ht)⟩,
    ⟨⟨hfrom, isSafe_whereTokens hps⟩, fun t ht => isSafe_of_inSelection (htail t ht)⟩, hcap⟩

theorem places_of_inSelection {ts : List Token} (h : ∀ t ∈ ts, t.InSelection) :
    Token.places ts = [] := by
  rw [Token.places, List.filterMap_eq_nil_iff]
  intro t ht
  have hin := h t ht
  cases t <;> first | rfl | exact hin.elim

theorem places_whereTokens (ps : List Predicate) :
    Token.places (Predicate.whereTokens ps)
      = Token.numbered 0 (ps.flatMap (·.values)).length := by
  cases ps with
  | nil => rfl
  | cons p rest =>
    have hwhere := Token.places_append [.word "WHERE"]
      ([Token.word "AND"].intercalate (Predicate.factors 0 (p :: rest)))
    rw [Token.places_intercalate rfl, Predicate.places_factors] at hwhere
    exact hwhere

theorem places_ofRequest {r : Request} {ps : List Predicate} {st : Statement}
    (hps : ∀ p ∈ ps, p.Formed) (h : ofRequest r ps = .ok st) :
    Token.places (Token.ofText st.sql) = Token.numbered 0 st.params.length := by
  obtain ⟨columns, table, tail, hsql, _, hcolumns, htail, _⟩ := layout_ofRequest hps h
  have hlength : st.params.length = (ps.flatMap (·.values)).length + 1 := by
    rw [params_ofRequest h, List.length_append, List.length_singleton]
  have hselect : Token.places (.word "SELECT" :: columns) = [] :=
    (Token.places_append [.word "SELECT"] columns).trans (places_of_inSelection hcolumns)
  have hcap : Token.places [.word "LIMIT", .place (toString st.params.length)]
      = Token.numbered (ps.flatMap (·.values)).length 1 := by
    rw [hlength]
    rfl
  have hfrom : Token.places [.word "FROM", .name table] = [] := rfl
  rw [hsql, layout, Token.places_append, Token.places_append, Token.places_append,
    Token.places_append, hselect, hfrom, places_whereTokens, places_of_inSelection htail, hcap,
    List.nil_append, List.nil_append, List.append_nil, hlength]
  simpa using Token.numbered_append 0 (ps.flatMap (·.values)).length 1

/-- Whether a token begins a clause after WHERE. -/
def beginsClause : Token → Bool
  | .word w => clauseWords.contains w
  | _ => false

/-- The tokens between WHERE and the next clause; none without WHERE. -/
def clause? (ts : List Token) : Option (List Token) :=
  match ts.dropWhile (· != .word "WHERE") with
  | [] => none
  | _ :: rest => some (rest.takeWhile fun t => !beginsClause t)

/-- The condition of a WHERE clause, which is missing where there is no clause; none when there is
a clause that does not make a condition. -/
def where? (sql : String) : Option (Option Condition) :=
  match clause? (Token.ofText sql) with
  | none => some none
  | some ts => (Condition.read ts).map some

theorem ne_where_of_inSelection {t : Token} (h : t.InSelection) : (t != .word "WHERE") = true := by
  rw [bne_iff_ne]
  rintro rfl
  exact h.1 rfl

theorem not_beginsClause_of_inCondition {t : Token} (h : t.InCondition) :
    (!beginsClause t) = true := by
  cases t with
  | word w =>
    rw [Token.InCondition] at h
    revert h
    simp only [List.mem_cons, List.not_mem_nil, or_false]
    rintro (rfl | rfl | rfl | rfl) <;> rfl
  | _ => rfl

/-- The tokens between WHERE and the next clause, for some conditions. -/
def clauseTokens : List Predicate → Option (List Token)
  | [] => none
  | p :: rest => some ([Token.word "AND"].intercalate (Predicate.factors 0 (p :: rest)))

/-- The clause ends where the next one begins, and the row cap comes at the latest. -/
theorem takeWhile_tail {tail rest : List Token}
    (h : tail = [] ∨ ∃ w rest, tail = .word w :: rest ∧ w ∈ clauseWords) :
    (tail ++ .word "LIMIT" :: rest).takeWhile (fun t => !beginsClause t) = [] := by
  rcases h with rfl | ⟨w, ts, rfl, hw⟩
  · rfl
  · refine List.takeWhile_cons_of_neg ?_
    simpa [beginsClause] using hw

theorem clause?_layout {columns tail : List Token} {table : String} {ps : List Predicate}
    {cap : Nat} (hps : ∀ p ∈ ps, p.Formed) (hcolumns : ∀ t ∈ columns, t.InSelection)
    (htail : ∀ t ∈ tail, t.InSelection)
    (hwords : tail = [] ∨ ∃ w rest, tail = .word w :: rest ∧ w ∈ clauseWords) :
    clause? (layout columns table ps tail cap) = clauseTokens ps := by
  have hhead : ∀ t ∈ Token.word "SELECT" :: columns, (t != .word "WHERE") = true := by
    rw [List.forall_mem_cons]
    exact ⟨rfl, fun t ht => ne_where_of_inSelection (hcolumns t ht)⟩
  have hfrom : ∀ t ∈ [Token.word "FROM", .name table], (t != .word "WHERE") = true := by
    simp
  unfold clause? layout
  rw [List.dropWhile_append_of_pos hhead, List.append_assoc, List.append_assoc,
    List.dropWhile_append_of_pos hfrom]
  cases ps with
  | nil =>
    have hrest : ∀ t ∈ tail ++ [.word "LIMIT", .place (toString cap)],
        (t != .word "WHERE") = true := by
      rw [List.forall_mem_append]
      exact ⟨fun t ht => ne_where_of_inSelection (htail t ht), by simp⟩
    rw [Predicate.whereTokens, List.nil_append, List.dropWhile_eq_nil_iff.mpr hrest]
    rfl
  | cons p rest =>
    have hfactors : ∀ t ∈ [Token.word "AND"].intercalate (Predicate.factors 0 (p :: rest)),
        (!beginsClause t) = true := by
      have hin := Predicate.inCondition_intercalate (Predicate.inCondition_factors hps 0)
      exact fun t ht => not_beginsClause_of_inCondition (hin t ht)
    rw [Predicate.whereTokens, List.cons_append, List.dropWhile_cons_of_neg (by simp)]
    show some _ = some _
    rw [List.takeWhile_append_of_pos hfactors, takeWhile_tail hwords, List.append_nil]

/-- Whether a row is selected: the clause is true of it, or there is none. -/
def Selected (row : Record) (params : List Value) : Option Condition → Prop
  | none => True
  | some c => c.truth row params = some true

/-- The WHERE clause of a statement is read back as the conditions of the statement. -/
theorem where_ofRequest {r : Request} {ps : List Predicate} {st : Statement}
    (hps : ∀ p ∈ ps, p.Formed) (h : ofRequest r ps = .ok st) :
    ∃ clause, where? st.sql = some clause ∧ (clause = none ↔ ps = []) ∧
      ∀ row, Selected row st.params clause ↔ ∀ p ∈ ps, p.Holds row := by
  obtain ⟨columns, table, tail, hsql, _, hcolumns, htail, hwords⟩ := layout_ofRequest hps h
  unfold where?
  rw [hsql, clause?_layout hps hcolumns htail hwords]
  cases ps with
  | nil => exact ⟨none, rfl, by simp, fun row => by simp [Selected]⟩
  | cons p rest =>
    rw [clauseTokens]
    refine ⟨_, congrArg (Option.map some) (Predicate.read_factors hps), by simp, fun row => ?_⟩
    have hbinds : Predicate.Binds st.params 0 ((p :: rest).flatMap (·.values)) := by
      intro i v hi
      rw [params_ofRequest h, Nat.zero_add,
        List.getElem?_append_left (List.getElem?_eq_some_iff.mp hi).1, hi]
    rw [← Predicate.truth_conditions hps hbinds, Predicate.conditions, Nat.zero_add]
    exact Condition.all_eq_true _ _

end Statement
end EventQuery
