import EventQuery.Name

/-!
# EventQuery.Proofs.Name.Characters

What an accepted name is made of. `isProperty_chars`: letters, digits, `$` and line feeds are all
that a property can hold; `isFlat_chars`: a flat name has no `$` either. So no accepted name holds
a double quote (`quote_not_mem_property`, `quote_not_mem_tableName`).
-/

namespace EventQuery
namespace Name

theorem isTail_chars {cs : List Char} (h : isTail cs = true) :
    ∀ c ∈ cs, isLetterOrDigit c = true ∨ c = '\n' := by
  induction cs with
  | nil => simp
  | cons d rest ih =>
    rw [isTail.eq_def] at h
    split at h
    · simp_all
    · rename_i heq
      cases heq
      simp
    · rename_i heq
      cases heq
      rw [Bool.and_eq_true] at h
      intro c hc
      rcases List.mem_cons.mp hc with rfl | hc
      · exact .inl h.1
      · exact ih h.2 c hc

theorem isPart_chars {cs : List Char} (h : isPart cs = true) :
    ∀ c ∈ cs, isLetterOrDigit c = true ∨ c = '\n' := by
  cases cs with
  | nil => simp
  | cons d rest =>
    rw [isPart, Bool.and_eq_true] at h
    intro c hc
    rcases List.mem_cons.mp hc with rfl | hc
    · exact .inl (by simp [isLetterOrDigit, h.1])
    · exact isTail_chars h.2 c hc

/-- A character is a mark or stands in one of the pieces. -/
theorem mem_pieces (isMark : Char → Bool) {cs : List Char} {c : Char} (h : c ∈ cs) :
    isMark c = true ∨ ∃ piece ∈ Text.pieces isMark cs, c ∈ piece := by
  induction cs with
  | nil => simp at h
  | cons d rest ih =>
    rw [Text.pieces]
    by_cases hd : isMark d = true
    · rw [if_pos hd]
      rcases List.mem_cons.mp h with rfl | h
      · exact .inl hd
      · refine (ih h).imp_right fun ⟨piece, hp, hc⟩ => ⟨piece, ?_, hc⟩
        exact List.mem_cons_of_mem _ hp
    · rw [if_neg hd]
      cases hp : Text.pieces isMark rest with
      | nil =>
        rcases List.mem_cons.mp h with rfl | h
        · exact .inr ⟨[c], by simp, by simp⟩
        · have := ih h
          simp_all
      | cons first more =>
        rcases List.mem_cons.mp h with rfl | h
        · exact .inr ⟨c :: first, by simp, by simp⟩
        · refine (ih h).imp_right fun ⟨piece, hmem, hc⟩ => ?_
          rw [hp] at hmem
          rcases List.mem_cons.mp hmem with rfl | hmem
          · exact ⟨d :: piece, by simp, by simp [hc]⟩
          · exact ⟨piece, List.mem_cons_of_mem _ hmem, hc⟩

theorem isProperty_chars {s : String} (h : isProperty s = true) :
    ∀ c ∈ s.toList, c = '$' ∨ isLetterOrDigit c = true ∨ c = '\n' := by
  intro c hc
  rcases mem_pieces (· == '$') hc with hmark | ⟨piece, hp, hcp⟩
  · exact .inl (by simpa using hmark)
  · exact .inr (isPart_chars (List.all_eq_true.mp h piece hp) c hcp)

theorem isFlat_chars {s : String} (h : isFlat s = true) :
    ∀ c ∈ s.toList, isLetterOrDigit c = true ∨ c = '\n' := isPart_chars h

/-! ## What the checks accept -/

theorem property_eq_ok {what : String} {v : Value} {s : String}
    (h : property what v = .ok s) : v = .text s ∧ isProperty s = true := by
  unfold property at h
  split at h
  · split at h
    · cases h
    · split at h
      · cases h
        exact ⟨rfl, by assumption⟩
      · cases h
  · cases h

theorem flat_eq_ok {what : String} {v : Value} {s : String}
    (h : flat what v = .ok s) : v = .text s ∧ isFlat s = true := by
  unfold flat at h
  split at h
  · split at h
    · cases h
      exact ⟨rfl, by assumption⟩
    · cases h
  · cases h

/-- A name read from a parameter is the parameter. -/
theorem mem_of_flat_ofText? {what s : String} {raw : Option String}
    (h : flat what (.ofText? raw) = .ok s) : s ∈ raw := by
  have htext := (flat_eq_ok h).1
  cases raw with
  | none => cases htext
  | some t =>
    cases htext
    rfl

theorem property_of_isProperty (what : String) {s : String} (h : isProperty s = true) :
    property what (.text s) = .ok s := by
  have hs : s.isEmpty = false := by
    rw [Bool.eq_false_iff]
    intro hempty
    rw [String.isEmpty_iff.mp hempty] at h
    revert h
    decide
  simp [property, hs, h]

theorem flat_of_isFlat (what : String) {s : String} (h : isFlat s = true) :
    flat what (.text s) = .ok s := by
  simp [flat, h]

theorem quotedColumn_of_isProperty {s : String} (h : isProperty s = true) :
    quotedColumn (.text s) = .ok (inQuotes s) := by
  rw [quotedColumn, property_of_isProperty "column" h]

theorem quotedTable_of_isFlat {p c : String} (hp : isFlat p = true) (hc : isFlat c = true) :
    quotedTable (.text p) (.text c) = .ok (inQuotes (tableName p c)) := by
  rw [quotedTable, flat_of_isFlat _ hp, flat_of_isFlat _ hc]

theorem quotedColumn_eq_ok {v : Value} {q : String} (h : quotedColumn v = .ok q) :
    ∃ s, q = inQuotes s ∧ property "column" v = .ok s := by
  unfold quotedColumn at h
  split at h
  · rename_i s hs
    cases h
    exact ⟨s, rfl, hs⟩
  · cases h

theorem quotedTable_eq_ok {project collection : Value} {q : String}
    (h : quotedTable project collection = .ok q) :
    ∃ p c, q = inQuotes (tableName p c) ∧ flat "project id" project = .ok p ∧
      flat "event collection" collection = .ok c := by
  unfold quotedTable at h
  split at h
  · cases h
  · cases h
  · rename_i p c hp hc
    cases h
    exact ⟨p, c, rfl, hp, hc⟩

theorem isProperty_timestampColumn : isProperty timestampColumn = true := by decide

/-! ## No quotes inside -/

theorem quote_not_mem_property {s : String} (h : isProperty s = true) : '"' ∉ s.toList := by
  intro hc
  rcases isProperty_chars h _ hc with h | h | h <;> revert h <;> decide

theorem quote_not_mem_flat {s : String} (h : isFlat s = true) : '"' ∉ s.toList := by
  intro hc
  rcases isFlat_chars h _ hc with h | h <;> revert h <;> decide

theorem quote_not_mem_tableName {p c : String} (hp : isFlat p = true) (hc : isFlat c = true) :
    '"' ∉ (tableName p c).toList := by
  simp [tableName, quote_not_mem_flat hp, quote_not_mem_flat hc]

end Name
end EventQuery
