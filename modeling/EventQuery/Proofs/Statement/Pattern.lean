import EventQuery.Proofs.Name.Isolation
import EventQuery.Statement.Basic

/-!
# EventQuery.Proofs.Statement.Pattern

What the patterns of LIKE describe (`Matches`). An underscore stands for any one character and a
percent sign for any number of them, unless a backslash comes before. The name of a project holds
none of the three, so the pattern of its tables describes just the texts that begin with the name
and an underscore (`matches_tablePattern`).
-/

namespace EventQuery
namespace Statement

/-- The characters of a pattern that do not stand for themselves. -/
def patternSigns : List Char := ['%', '_', '\\']

/-- The texts that a pattern describes. -/
inductive Matches : List Char → List Char → Prop where
  | nil : Matches [] []
  | literal {c : Char} {ps ts : List Char} :
      c ∉ patternSigns → Matches ps ts → Matches (c :: ps) (c :: ts)
  | escaped {c : Char} {ps ts : List Char} : Matches ps ts → Matches ('\\' :: c :: ps) (c :: ts)
  | one {c : Char} {ps ts : List Char} : Matches ps ts → Matches ('_' :: ps) (c :: ts)
  | any {ps ts : List Char} (skipped : List Char) :
      Matches ps ts → Matches ('%' :: ps) (skipped ++ ts)

variable {c : Char} {ps ts front : List Char} {p : String}

theorem matches_literal_iff (hc : c ∉ patternSigns) :
    Matches (c :: ps) ts ↔ ∃ rest, ts = c :: rest ∧ Matches ps rest := by
  constructor
  · intro h
    cases h with
    | literal _ h => exact ⟨_, rfl, h⟩
    | escaped => exact absurd (by decide) hc
    | one => exact absurd (by decide) hc
    | any => exact absurd (by decide) hc
  · rintro ⟨rest, rfl, h⟩
    exact .literal hc h

theorem matches_escaped_iff :
    Matches ('\\' :: c :: ps) ts ↔ ∃ rest, ts = c :: rest ∧ Matches ps rest := by
  constructor
  · intro h
    cases h with
    | literal hc _ => exact absurd (by decide) hc
    | escaped h => exact ⟨_, rfl, h⟩
  · rintro ⟨rest, rfl, h⟩
    exact .escaped h

/-- A percent sign at the end of a pattern leaves the rest of the text open. -/
theorem matches_any (ts : List Char) : Matches ['%'] ts := by
  have h := Matches.any ts .nil
  rwa [List.append_nil] at h

theorem matches_front_iff (hfront : ∀ c ∈ front, c ∉ patternSigns) :
    Matches (front ++ ps) ts ↔ ∃ rest, ts = front ++ rest ∧ Matches ps rest := by
  induction front generalizing ts with
  | nil => simp
  | cons c front ih =>
    rw [List.forall_mem_cons] at hfront
    rw [List.cons_append, matches_literal_iff hfront.1]
    simp only [ih hfront.2]
    constructor
    · rintro ⟨_, rfl, rest, rfl, h⟩
      exact ⟨rest, rfl, h⟩
    · rintro ⟨rest, rfl, h⟩
      exact ⟨_, rfl, rest, rfl, h⟩

theorem not_mem_patternSigns_of_isFlat (hp : Name.isFlat p = true) :
    ∀ c ∈ p.toList, c ∉ patternSigns := by
  intro c hc hsign
  simp only [patternSigns, List.mem_cons, List.not_mem_nil, or_false] at hsign
  rcases hsign with rfl | rfl | rfl
  · rcases Name.isFlat_chars hp _ hc with h | h <;> revert h <;> decide
  · exact Name.underscore_not_mem_flat hp hc
  · rcases Name.isFlat_chars hp _ hc with h | h <;> revert h <;> decide

theorem matches_tablePattern (hp : Name.isFlat p = true) :
    Matches (tablePattern p).toList ts ↔ (Name.tableName p "").toList <+: ts := by
  have hpattern : (tablePattern p).toList = p.toList ++ ['\\', '_', '%'] := by
    simp [tablePattern]
  have htable : (Name.tableName p "").toList = p.toList ++ ['_'] := by simp [Name.tableName]
  rw [hpattern, htable, matches_front_iff (not_mem_patternSigns_of_isFlat hp)]
  simp only [matches_escaped_iff]
  constructor
  · rintro ⟨_, rfl, rest, rfl, _⟩
    exact ⟨rest, by simp⟩
  · rintro ⟨rest, rfl⟩
    exact ⟨'_' :: rest, by simp, rest, rfl, matches_any rest⟩

/-- Without the backslash the pattern would take in the tables of longer names. -/
example : Matches "p1_%".toList "p10_other".toList :=
  .literal (by decide) (.literal (by decide) (.one (matches_any _)))

end Statement
end EventQuery
