import EventQuery.Proofs.Statement.Clause
import EventQuery.Statement.Basic

/-!
# EventQuery.Proofs.Statement.Where

The WHERE clause of several conditions, each of them in parentheses, with one list of bound values
for all. What a single condition was shown to be carries over: `open_whereClause` gives the tokens
of the clause, `read_factors` the condition they make, `places_factors` their placeholders, and
`truth_conditions` what the clause says of a row.
-/

namespace EventQuery
namespace Predicate

/-- The tokens of conditions in parentheses, after some values are bound. -/
def factors (bound : Nat) : List Predicate → List (List Token)
  | [] => []
  | p :: rest =>
    (.mark '(' :: (p.tokens bound ++ [.mark ')'])) :: factors (bound + p.values.length) rest

def conditions (bound : Nat) : List Predicate → List Condition
  | [] => []
  | p :: rest => p.condition bound :: conditions (bound + p.values.length) rest

variable {ps : List Predicate}

/-- A condition has a text that is not empty. -/
theorem text_ne_empty (bound : Nat) {p : Predicate} (h : p.Formed) :
    (p.text bound).isEmpty = false := by
  -- an empty text has no tokens, and no tokens make no condition
  rw [Bool.eq_false_iff]
  intro hempty
  rw [String.isEmpty_iff] at hempty
  have htokens := (open_text bound h).ofText_eq
  rw [hempty] at htokens
  obtain ⟨l, d, hread, hstage, _⟩ := reads_tokens bound h []
  rw [← htokens] at hread
  cases hread
  cases hstage

theorem filterMap_texts (h : ∀ p ∈ ps, p.Formed) (bound : Nat) :
    ((texts bound ps).map some).filterMap (fun p => p.filter (!·.isEmpty)) = texts bound ps := by
  induction ps generalizing bound with
  | nil => rfl
  | cons p rest ih =>
    rw [List.forall_mem_cons] at h
    rw [texts, List.map_cons, List.filterMap_cons, ih h.2]
    simp [Option.filter, text_ne_empty bound h.1]

theorem open_factors (h : ∀ p ∈ ps, p.Formed) (bound : Nat) :
    List.Forall₂ Token.Open ((texts bound ps).map fun p => "(" ++ p ++ ")") (factors bound ps) := by
  induction ps generalizing bound with
  | nil => exact .nil
  | cons p rest ih =>
    rw [List.forall_mem_cons] at h
    have hopen : Token.Closed "(" [.mark '('] := fun _ => rfl
    have hclose : Token.Closed ")" [.mark ')'] := fun _ => rfl
    have hp := (hopen.append_open (open_text bound h.1)).append_closed hclose fun _ => rfl
    exact .cons hp.open (ih h.2 _)

/-- The tokens of the WHERE clause of some conditions. -/
def whereTokens : List Predicate → List Token
  | [] => []
  | p :: rest => .word "WHERE" :: [Token.word "AND"].intercalate (factors 0 (p :: rest))

theorem open_whereClause (h : ∀ p ∈ ps, p.Formed) :
    Token.Open (Statement.whereClause ((texts 0 ps).map some)) (whereTokens ps) := by
  rw [Statement.whereClause, filterMap_texts h]
  cases ps with
  | nil => exact Token.open_empty
  | cons p rest =>
    have hwhere : Token.Closed " WHERE " [.word "WHERE"] := fun _ => rfl
    have hand : Token.Closed " AND " [.word "AND"] := fun _ => rfl
    exact hwhere.append_open (Token.open_intercalate hand (fun _ => rfl) (open_factors h 0))

theorem isFactor_factors (h : ∀ p ∈ ps, p.Formed) (bound : Nat) :
    List.Forall₂ Condition.IsFactor (factors bound ps) (conditions bound ps) := by
  induction ps generalizing bound with
  | nil => exact .nil
  | cons p rest ih =>
    rw [List.forall_mem_cons] at h
    exact .cons (reads_tokens bound h.1).parens (ih h.2 _)

/-- The condition of a WHERE clause is that all its conditions hold. -/
theorem read_factors {p : Predicate} {rest : List Predicate} (h : ∀ q ∈ p :: rest, q.Formed) :
    Condition.read ([Token.word "AND"].intercalate (factors 0 (p :: rest)))
      = some (.all (p.condition 0) (conditions p.values.length rest)) := by
  have hfactors := isFactor_factors h 0
  rw [conditions, Nat.zero_add] at hfactors
  exact Condition.read_eq (Condition.reads_conjunction hfactors)

theorem places_factors (bound : Nat) :
    (factors bound ps).flatMap Token.places
      = Token.numbered bound (ps.flatMap (·.values)).length := by
  induction ps generalizing bound with
  | nil => rfl
  | cons p rest ih =>
    have hparens : Token.places (.mark '(' :: (p.tokens bound ++ [.mark ')']))
        = Token.places (p.tokens bound) ++ [] :=
      Token.places_append (p.tokens bound) [.mark ')']
    rw [factors, List.flatMap_cons, ih, hparens, List.append_nil, places_tokens,
      Token.numbered_append, List.flatMap_cons, List.length_append]

theorem inCondition_factors (h : ∀ p ∈ ps, p.Formed) (bound : Nat) :
    ∀ ts ∈ factors bound ps, ∀ t ∈ ts, t.InCondition := by
  induction ps generalizing bound with
  | nil => simp [factors]
  | cons p rest ih =>
    rw [List.forall_mem_cons] at h
    rw [factors, List.forall_mem_cons]
    refine ⟨fun t ht => ?_, ih h.2 _⟩
    simp only [List.mem_cons, List.mem_append, List.not_mem_nil, or_false] at ht
    rcases ht with rfl | ht | rfl
    · trivial
    · exact inCondition_tokens bound h.1 t ht
    · trivial

/-- The clause is the word that begins it and the tokens of conditions. -/
theorem inCondition_whereTokens (h : ∀ p ∈ ps, p.Formed) :
    ∀ t ∈ whereTokens ps, t = .word "WHERE" ∨ t.InCondition := by
  cases ps with
  | nil => simp [whereTokens]
  | cons p rest =>
    rw [whereTokens, List.forall_mem_cons]
    exact ⟨.inl rfl, fun t ht => .inr (inCondition_intercalate (inCondition_factors h 0) t ht)⟩

theorem word_not_mem_whereTokens {w : String} (h : ∀ p ∈ ps, p.Formed)
    (hw : w ∉ ["WHERE", "AND", "OR", "BETWEEN", "FALSE"]) : .word w ∉ whereTokens ps := by
  intro hmem
  rcases inCondition_whereTokens h _ hmem with heq | hin
  · cases heq
    simp at hw
  · exact hw (List.mem_cons_of_mem _ hin)

theorem truth_conditions {row : Record} {params : List Value} {bound : Nat}
    (h : ∀ p ∈ ps, p.Formed) (hb : Binds params bound (ps.flatMap (·.values))) :
    (∀ c ∈ conditions bound ps, c.truth row params = some true) ↔ ∀ p ∈ ps, p.Holds row := by
  induction ps generalizing bound with
  | nil => simp [conditions]
  | cons p rest ih =>
    rw [List.forall_mem_cons] at h
    rw [List.flatMap_cons] at hb
    rw [conditions, List.forall_mem_cons, List.forall_mem_cons, truth_condition h.1 hb.append.1,
      ih h.2 hb.append.2]

end Predicate
end EventQuery
