import EventQuery.Proofs.Name.Isolation
import EventQuery.Proofs.Statement.Layout

/-!
# EventQuery.Proofs.Statement.Source

What statements read. `Token.sources` are the tokens that follow FROM. A statement of a request and
one that computes statistics read the table of their collection, and name no other table anywhere
(`readsOnly_ofRequest`, `readsOnly_statistics`); a statement about columns reads the list of
columns, and binds one text that picks the tables (`looksUp_columnTypes`, `looksUp_collections`).
-/

namespace EventQuery
namespace Token

/-- The tokens that follow FROM. -/
def sources : List Token → List Token
  | [] => []
  | t :: rest => if t = .word "FROM" then rest.head?.toList ++ sources rest else sources rest

variable {ts us : List Token}

theorem sources_append (h : Token.word "FROM" ∉ ts) : sources (ts ++ us) = sources us := by
  induction ts with
  | nil => rfl
  | cons t ts ih =>
    rw [List.mem_cons, not_or] at h
    rw [List.cons_append, sources, if_neg (Ne.symm h.1), ih h.2]

theorem sources_eq_nil (h : Token.word "FROM" ∉ ts) : sources ts = [] := by
  have happend := @sources_append ts [] h
  rwa [List.append_nil] at happend

end Token

namespace Statement

variable {project collection : String} {st : Statement}

/-- A statement reads the table of one collection, and names no other table. -/
structure ReadsOnly (project collection : String) (st : Statement) : Prop where
  sources_eq : Token.sources (Token.ofText st.sql) = [.name (Name.tableName project collection)]
  names : ∀ n, .name n ∈ Token.ofText st.sql →
    n = Name.tableName project collection ∨ Name.isProperty n = true

/-- A statement reads the list of columns, names nothing, and binds one text. -/
structure LooksUp (bound : String) (st : Statement) : Prop where
  sources_eq : Token.sources (Token.ofText st.sql) = [.word "information_schema"]
  names : ∀ n, .name n ∉ Token.ofText st.sql
  params_eq : st.params = [.text bound]

/-! ## Statements of requests -/

theorem from_not_mem_of_inSelection {ts : List Token} (h : ∀ t ∈ ts, t.InSelection) :
    Token.word "FROM" ∉ ts := fun hmem => (h _ hmem).2 rfl

theorem isProperty_result : ∀ n ∈ resultNames, Name.isProperty n = true := by decide

/-- The names in a layout are that of the table and accepted properties. -/
theorem names_layout {columns tail : List Token} {table : String} {ps : List Predicate} {cap : Nat}
    (hps : ∀ p ∈ ps, p.Formed) (hcolumns : ∀ t ∈ columns, t.InSelection)
    (htail : ∀ t ∈ tail, t.InSelection) {n : String}
    (h : .name n ∈ layout columns table ps tail cap) : n = table ∨ Name.isProperty n = true := by
  have hselection : Token.InSelection (.name n) → Name.isProperty n = true := by
    rintro (hn | hn)
    · exact hn
    · exact isProperty_result n hn
  simp only [layout, List.cons_append, List.append_assoc, List.mem_cons, List.mem_append,
    List.not_mem_nil, or_false, false_or, reduceCtorEq, Token.name.injEq] at h
  rcases h with h | h | h | h
  · exact .inr (hselection (hcolumns _ h))
  · exact .inl h
  · rcases Predicate.inCondition_whereTokens hps _ h with heq | hin
    · cases heq
    · exact .inr hin
  · exact .inr (hselection (htail _ h))

theorem sources_layout {columns tail : List Token} {table : String} {ps : List Predicate}
    {cap : Nat} (hps : ∀ p ∈ ps, p.Formed) (hcolumns : ∀ t ∈ columns, t.InSelection)
    (htail : ∀ t ∈ tail, t.InSelection) :
    Token.sources (layout columns table ps tail cap) = [.name table] := by
  have hhead : Token.word "FROM" ∉ Token.word "SELECT" :: columns := by
    rw [List.mem_cons, not_or]
    exact ⟨by simp, from_not_mem_of_inSelection hcolumns⟩
  have hrest : Token.word "FROM" ∉ Token.name table :: (Predicate.whereTokens ps ++ (tail
      ++ [.word "LIMIT", .place (toString cap)])) := by
    have hconditions : .word "FROM" ∉ Predicate.whereTokens ps :=
      Predicate.word_not_mem_whereTokens hps (by decide)
    simp [hconditions, from_not_mem_of_inSelection htail]
  rw [layout, Token.sources_append hhead]
  simp only [List.append_assoc, List.cons_append, List.nil_append]
  rw [Token.sources, if_pos rfl, Token.sources_eq_nil hrest]
  rfl

theorem readsOnly_ofRequest {r : Request} {ps : List Predicate} (hps : ∀ p ∈ ps, p.Formed)
    (h : ofRequest r ps = .ok st) : st.ReadsOnly r.project r.collection := by
  obtain ⟨columns, tail, hsql, hcolumns, htail, _⟩ := layout_table_ofRequest hps h
  refine ⟨?_, fun n hn => ?_⟩
  · rw [hsql, sources_layout hps hcolumns htail]
  · rw [hsql] at hn
    exact names_layout hps hcolumns htail hn

/-! ## Statements of their own -/

/-- The tokens of a statement that computes statistics. -/
theorem ofText_statistics {project collection property : Value}
    (h : statistics project collection property = .ok st) :
    ∃ p c x, project = .text p ∧ collection = .text c ∧ property = .text x ∧
      Name.isFlat p = true ∧ Name.isFlat c = true ∧ Name.isProperty x = true ∧
      Token.ofText st.sql =
        [.word "SELECT", .word "AVG", .mark '(', .name x, .mark ')', .word "AS", .name "mean",
          .mark ',', .word "STDDEV", .mark '(', .name x, .mark ')', .word "AS", .name "stddev",
          .word "FROM", .name (Name.tableName p c)] := by
  unfold statistics at h
  split at h
  · cases h
  · rename_i table htable
    split at h
    · cases h
    · rename_i column hcolumn
      cases h
      obtain ⟨p, c, rfl, hp, hc⟩ := Name.quotedTable_eq_ok htable
      obtain ⟨x, rfl, hx⟩ := Name.quotedColumn_eq_ok hcolumn
      obtain ⟨hproject, hp⟩ := Name.flat_eq_ok hp
      obtain ⟨hcollection, hc⟩ := Name.flat_eq_ok hc
      obtain ⟨hproperty, hx⟩ := Name.property_eq_ok hx
      refine ⟨p, c, x, hproject, hcollection, hproperty, hp, hc, hx, ?_⟩
      have havg : Token.Closed "SELECT AVG(" [.word "SELECT", .word "AVG", .mark '('] :=
        fun _ => rfl
      have hmean : Token.Closed ") AS \"mean\", STDDEV("
          [.mark ')', .word "AS", .name "mean", .mark ',', .word "STDDEV", .mark '('] :=
        fun _ => rfl
      have hstddev : Token.Closed ") AS \"stddev\" FROM "
          [.mark ')', .word "AS", .name "stddev", .word "FROM"] := fun _ => rfl
      have hcolumn := Predicate.closed_column hx
      have htable := Token.closed_inQuotes (Name.quote_not_mem_tableName hp hc)
      have htext := ((((havg.append hcolumn).append hmean).append hcolumn).append
        hstddev).append htable
      exact htext.open.ofText_eq

theorem readsOnly_statistics {property : Value}
    (h : statistics (.text project) (.text collection) property = .ok st) :
    st.ReadsOnly project collection := by
  obtain ⟨p, c, x, hproject, hcollection, _, _, _, hx, htokens⟩ := ofText_statistics h
  cases hproject
  cases hcollection
  refine ⟨by rw [htokens]; rfl, fun n hn => ?_⟩
  rw [htokens] at hn
  simp only [List.mem_cons, Token.name.injEq, reduceCtorEq, List.not_mem_nil, or_false,
    false_or] at hn
  rcases hn with rfl | rfl | rfl | rfl | rfl
  · exact .inr hx
  · exact .inr (by decide)
  · exact .inr hx
  · exact .inr (by decide)
  · exact .inl rfl

/-- The tokens of the beginning of a statement about columns. -/
def columnListTokens : List Token :=
  [.word "SELECT", .word "table_name", .mark ',', .word "column_name", .mark ',',
    .word "data_type", .word "FROM", .word "information_schema", .mark '.', .word "columns",
    .word "WHERE", .word "table_schema", .sign "=", .mark '\'', .word "public", .mark '\'',
    .word "AND", .word "table_name"]

theorem closed_columnList : Token.Closed columnList columnListTokens := by
  have hblank : columnList = "SELECT table_name, column_name, data_type FROM "
      ++ "information_schema.columns WHERE table_schema = 'public' AND table_name" ++ " " := by
    decide +kernel
  rw [hblank]
  exact Token.closed_blank (by decide +kernel) (by simp [columnListTokens])

theorem ofText_columnTypes {project collection : Value}
    (h : columnTypes project collection = .ok st) :
    ∃ p c, project = .text p ∧ collection = .text c ∧ st.params = [.text (Name.tableName p c)] ∧
      Token.ofText st.sql = columnListTokens ++ [.sign "=", .place "1"] := by
  unfold columnTypes at h
  split at h
  · cases h
  · rename_i p hp
    split at h
    · cases h
    · rename_i c hc
      cases h
      have hbound : Token.Open "= $1" [.sign "=", .place "1"] := fun _ hrest =>
        congrArg (Token.sign "=" :: ·) (Token.lex_breaks (k := .place) (by decide) hrest "1".toList)
      exact ⟨p, c, (Name.flat_eq_ok hp).1, (Name.flat_eq_ok hc).1, rfl,
        (closed_columnList.append_open hbound).ofText_eq⟩

theorem ofText_collections {project : Value} (h : collections project = .ok st) :
    ∃ p, project = .text p ∧ st.params = [.text (tablePattern p)] ∧
      Token.ofText st.sql = columnListTokens ++ [.word "LIKE", .place "1", .word "ORDER",
        .word "BY", .word "table_name", .mark ',', .word "ordinal_position"] := by
  unfold collections at h
  split at h
  · cases h
  · rename_i p hp
    cases h
    have hpattern : Token.Closed "LIKE $1 ORDER BY table_name, "
        [.word "LIKE", .place "1", .word "ORDER", .word "BY", .word "table_name", .mark ','] :=
      fun _ => rfl
    have hlast : Token.Open "ordinal_position" [.word "ordinal_position"] := fun _ hrest =>
      Token.lex_breaks (k := .word) (by decide) hrest "ordinal_position".toList
    exact ⟨p, (Name.flat_eq_ok hp).1, rfl,
      (closed_columnList.append_open (hpattern.append_open hlast)).ofText_eq⟩

theorem looksUp_columnTypes
    (h : columnTypes (.text project) (.text collection) = .ok st) :
    st.LooksUp (Name.tableName project collection) := by
  obtain ⟨p, c, hproject, hcollection, hparams, htokens⟩ := ofText_columnTypes h
  cases hproject
  cases hcollection
  refine ⟨?_, fun n => ?_, hparams⟩
  · rw [htokens]
    rfl
  · simp [htokens, columnListTokens]

theorem looksUp_collections (h : collections (.text project) = .ok st) :
    st.LooksUp (tablePattern project) := by
  obtain ⟨p, hproject, hparams, htokens⟩ := ofText_collections h
  cases hproject
  refine ⟨?_, fun n => ?_, hparams⟩
  · rw [htokens]
    rfl
  · simp [htokens, columnListTokens]

end Statement
end EventQuery
