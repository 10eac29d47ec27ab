import EventQuery.Proofs.Engine.Compile
import EventQuery.Proofs.Statement.Source

/-!
# EventQuery.Proofs.Statement.Alphabet

What the allow-list lets through. It accepts lines where it means words: one line feed at the end
of a part passes (`flat_accepts_feed`), and it is the only way in which the list accepts more than
its language (`accepts_lines`). From there it gets into the double quotes of statements and into
the keys of the cache; no other character from outside of the alphabet does.
-/

namespace EventQuery

namespace Name

/-- The characters of words, and the marks that join them. -/
def IsCharacter (c : Char) : Prop := isLetterOrDigit c = true ∨ c = '$' ∨ c = '_'

/-- A text of such characters and line feeds. -/
def IsSpelled (s : String) : Prop := ∀ c ∈ s.toList, IsCharacter c ∨ c = '\n'

theorem isSpelled_property {s : String} (h : isProperty s = true) : IsSpelled s := by
  intro c hc
  rcases isProperty_chars h c hc with rfl | hc | rfl
  · exact .inl (.inr (.inl rfl))
  · exact .inl (.inl hc)
  · exact .inr rfl

theorem isProperty_of_isFlat {s : String} (h : isFlat s = true) : isProperty s = true := by
  rw [isProperty_iff]
  exact ⟨[s.toList], by simp, by simpa using (isFlat_iff s).mp h, by simp⟩

theorem isSpelled_flat {s : String} (h : isFlat s = true) : IsSpelled s :=
  isSpelled_property (isProperty_of_isFlat h)

/-- Spelled texts with an underscore between them. -/
theorem IsSpelled.join {s t : String} (hs : IsSpelled s) (ht : IsSpelled t) :
    IsSpelled (s ++ "_" ++ t) := by
  intro c hc
  simp only [String.toList_append, List.mem_append] at hc
  rcases hc with (hc | hc) | hc
  · exact hs c hc
  · cases List.mem_singleton.mp hc
    exact .inl (.inr (.inr rfl))
  · exact ht c hc

theorem isSpelled_tableName {p c : String} (hp : isFlat p = true) (hc : isFlat c = true) :
    IsSpelled (tableName p c) := (isSpelled_flat hp).join (isSpelled_flat hc)

theorem Place.isSpelled_statsKey (x : Place) : IsSpelled x.statsKey :=
  ((isSpelled_flat x.isFlat_project).join (isSpelled_flat x.isFlat_collection)).join
    (isSpelled_property x.isProperty_property)

theorem Place.isSpelled_rollupKey (x : Place) : IsSpelled x.rollupKey := by
  have hhist : IsSpelled "hist" := isSpelled_property (by decide)
  have hkey : x.rollupKey = x.statsKey ++ "_" ++ "hist" := by
    rw [String.append_assoc]
    rfl
  rw [hkey]
  exact x.isSpelled_statsKey.join hhist

end Name

theorem isSpelled_of_quotable {s : String} (h : Quotable s) : Name.IsSpelled s := by
  cases h with
  | column h => exact Name.isSpelled_property (Name.property_eq_ok h).2
  | table hp hc => exact Name.isSpelled_tableName (Name.flat_eq_ok hp).2 (Name.flat_eq_ok hc).2
  | result h => exact Name.isSpelled_property (Statement.isProperty_result s h)

namespace Statement

/-- The statements that there are: those of requests, and four others. -/
inductive Built : Statement → Prop where
  | request {s : Settings} {r : Request} {window : Option Window}
      {stats : Option (String × Statistics)} {st : Statement} :
      Engine.assemble s r window stats = .ok st → Built st
  | statistics {project collection property : Value} {st : Statement} :
      statistics project collection property = .ok st → Built st
  | columnTypes {project collection : Value} {st : Statement} :
      columnTypes project collection = .ok st → Built st
  | collections {project : Value} {st : Statement} : collections project = .ok st → Built st
  | project {table id : Value} {st : Statement} : project table id = .ok st → Built st

theorem ofText_project {table id : Value} {st : Statement} (h : project table id = .ok st) :
    ∃ t, table = .text t ∧ Name.isFlat t = true ∧ Token.ofText st.sql =
      [.word "SELECT", .word "project_id", .mark ',', .word "read_key", .mark ',',
        .word "write_key", .mark ',', .word "master_key", .mark ',', .word "organization",
        .word "FROM", .name t, .word "WHERE", .word "project_id", .sign "=", .place "1",
        .word "LIMIT", .word "1"] := by
  unfold project at h
  split at h
  · cases h
  · rename_i t ht
    cases h
    obtain ⟨htable, ht⟩ := Name.flat_eq_ok ht
    refine ⟨t, htable, ht, ?_⟩
    have hselect : Token.Closed
        ("SELECT project_id, read_key, write_key, master_key, organization FROM" ++ " ")
        [.word "SELECT", .word "project_id", .mark ',', .word "read_key", .mark ',',
          .word "write_key", .mark ',', .word "master_key", .mark ',', .word "organization",
          .word "FROM"] := Token.closed_blank (by decide +kernel) (by simp)
    have hwhere : Token.Closed " WHERE project_id = $1 LIMIT "
        [.word "WHERE", .word "project_id", .sign "=", .place "1", .word "LIMIT"] := fun _ => rfl
    have hone : Token.Open "1" [.word "1"] := fun _ hrest =>
      Token.lex_breaks (k := .word) (by decide) hrest "1".toList
    have htext := (hselect.append (Token.closed_inQuotes (Name.quote_not_mem_flat ht))).append_open
      (hwhere.append_open hone)
    exact htext.ofText_eq

/-- Every name that a statement quotes has passed the allow-list, or is put together from names
that have. -/
theorem Built.isSafe {st : Statement} (h : Built st) : ∀ t ∈ Token.ofText st.sql, t.IsSafe := by
  cases h with
  | request h =>
    obtain ⟨ps, hst, hformed, _⟩ := Engine.assemble_eq_ok h
    exact isSafe_ofRequest hformed hst
  | statistics h =>
    obtain ⟨p, c, x, _, _, _, hp, hc, hx, htokens⟩ := ofText_statistics h
    have hcolumn : Quotable x := quotable_of_isProperty hx
    have hmean : Quotable "mean" := quotable_of_isProperty (by decide)
    have hstddev : Quotable "stddev" := quotable_of_isProperty (by decide)
    have htable : Quotable (Name.tableName p c) :=
      .table (Name.flat_of_isFlat _ hp) (Name.flat_of_isFlat _ hc)
    simp [htokens, Token.IsSafe, hcolumn, hmean, hstddev, htable]
  | columnTypes h =>
    obtain ⟨_, _, _, _, _, htokens⟩ := ofText_columnTypes h
    simp [htokens, columnListTokens, Token.IsSafe]
  | collections h =>
    obtain ⟨_, _, _, htokens⟩ := ofText_collections h
    simp [htokens, columnListTokens, Token.IsSafe]
  | project h =>
    obtain ⟨t, _, ht, htokens⟩ := ofText_project h
    have htable : Quotable t := quotable_of_isProperty (Name.isProperty_of_isFlat ht)
    simp [htokens, Token.IsSafe, htable]

end Statement

namespace Name

theorem flat_eq_ok_iff (what s : String) :
    (∃ t, flat what (.text s) = .ok t) ↔ IsLine s.toList := by
  rw [← isFlat_iff]
  constructor
  · rintro ⟨t, ht⟩
    obtain ⟨hs, ht⟩ := flat_eq_ok ht
    cases hs
    exact ht
  · exact fun h => ⟨s, flat_of_isFlat what h⟩

theorem property_eq_ok_iff (what s : String) :
    (∃ t, property what (.text s) = .ok t) ↔ JoinedBy IsLine s.toList := by
  rw [← isProperty_iff]
  constructor
  · rintro ⟨t, ht⟩
    obtain ⟨hs, ht⟩ := property_eq_ok ht
    cases hs
    exact ht
  · exact fun h => ⟨s, property_of_isProperty what h⟩

/-- Lines for words: which texts pass, that the difference is a line feed and nothing else, and
where what has passed is found. -/
theorem accepts_lines (what : String) :
    (∀ s, ((∃ t, flat what (.text s) = .ok t) ↔ IsLine s.toList) ∧
      ((∃ t, property what (.text s) = .ok t) ↔ JoinedBy IsLine s.toList)) ∧
    (∀ s, IsWord s.toList ↔ (∃ t, flat what (.text s) = .ok t) ∧ '\n' ∉ s.toList) ∧
    (∀ s, JoinedBy IsWord s.toList ↔
      (∃ t, property what (.text s) = .ok t) ∧ '\n' ∉ s.toList) ∧
    (∀ st, Statement.Built st → ∀ t ∈ Token.ofText st.sql,
      (∀ n, t ≠ .unclosed n) ∧ ∀ n, t = .name n → IsSpelled n) ∧
    ∀ x : Place, IsSpelled x.statsKey ∧ IsSpelled x.rollupKey := by
  refine ⟨?passes, ?flat, ?property, ?statements, ?keys⟩
  case passes => exact fun s => ⟨flat_eq_ok_iff what s, property_eq_ok_iff what s⟩
  case flat =>
    intro s
    rw [flat_eq_ok_iff]
    constructor
    · exact fun h => ⟨.inl h, feed_not_mem_of_isWord h⟩
    · exact fun ⟨h, hfeed⟩ => (isWord_iff_of_not_mem hfeed).mpr h
  case property =>
    intro s
    rw [property_eq_ok_iff]
    exact joinedBy_isWord_iff
  case statements =>
    intro st h t ht
    have hsafe := h.isSafe t ht
    constructor
    · rintro n rfl
      exact hsafe
    · rintro n rfl
      exact isSpelled_of_quotable hsafe
  case keys => exact fun x => ⟨x.isSpelled_statsKey, x.isSpelled_rollupKey⟩

theorem accepts_lines_voltage :
    (∃ t, flat "identifier" (.text "voltage") = .ok t) ∧
      ∃ st, Statement.statistics (.text "p1") (.text "measurements") (.text "voltage") = .ok st ∧
        ∀ n, .name n ∈ Token.ofText st.sql → IsSpelled n := by
  obtain ⟨_, hflat, _, hstatements, _⟩ := accepts_lines "identifier"
  have hword : IsWord "voltage".toList :=
    ⟨'v', "oltage".toList, rfl, rfl, List.all_eq_true.mp rfl⟩
  obtain ⟨st, hst⟩ : ∃ st, Statement.statistics (.text "p1") (.text "measurements")
      (.text "voltage") = .ok st := ⟨_, rfl⟩
  refine ⟨((hflat "voltage").mp hword).1, st, hst, fun n hn => ?_⟩
  exact (hstatements st (.statistics hst) _ hn).2 n rfl

/-- A line feed passes, in a flat name and in a nested one, and gets into the double quotes. -/
theorem flat_accepts_feed :
    (flat "identifier" (.text "abc\n") = .ok "abc\n" ∧ ¬IsWord "abc\n".toList) ∧
      (property "property" (.text "a\n$b") = .ok "a\n$b" ∧ ¬JoinedBy IsWord "a\n$b".toList) ∧
      quotedColumn (.text "abc\n") = .ok (inQuotes "abc\n") := by
  refine ⟨⟨flat_of_isFlat _ (by decide), fun h => ?_⟩,
    ⟨property_of_isProperty _ (by decide), fun h => ?_⟩, ?_⟩
  · exact absurd (feed_not_mem_of_isWord h) (by decide)
  · exact absurd (joinedBy_isWord_iff.mp h).2 (by decide)
  · rw [quotedColumn, property_of_isProperty _ (by decide)]

end Name
end EventQuery
