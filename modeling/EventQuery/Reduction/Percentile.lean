import EventQuery.Failure

/-!
# EventQuery.Reduction.Percentile

The percentile of a list by nearest rank: an element of the list, the first in order whose share
of the list reaches the rank. Only integers and doubles take part. The place is computed in
doubles, `ceil (n * (rank / 100) - 1)`, and never below zero; NaN among the numbers makes the
result NaN.
-/

namespace EventQuery
namespace Percentile

/-- An integer or a double as a double; other values are no numbers here. -/
def numberOf (v : Value) : Outcome (Option Binary64) :=
  match v with
  | .int n =>
    match Binary64.ofInt? n with
    | none => faulty .beyondDouble
    | some x => .ok (some x)
  | .float x => .ok (some x)
  | _ => .ok none

/-- The integers and doubles of a list, as doubles. -/
def numbers : List Value → Outcome (List Binary64)
  | [] => .ok []
  | v :: rest =>
    match numberOf v with
    | .error e => .error e
    | .ok none => numbers rest
    | .ok (some x) => (numbers rest).map (x :: ·)

/-- The place of a rank in a sorted list of a given length. -/
def place (count : Nat) (rank : Binary64) : Nat :=
  let share := rank.div (.ofInt 100)
  (((Binary64.ofInt count).mul share).sub (.ofInt 1)).ceil.toNat

/-- Whether a rank lies between 0 and 100. -/
def isRank (rank : Binary64) : Bool := (Binary64.ofInt 0).atMost rank && rank.atMost (.ofInt 100)

/-- Puts a number before the first one that is not less. -/
def insert (x : Binary64) : List Binary64 → List Binary64
  | [] => [x]
  | y :: rest => if x.rank ≤ y.rank then x :: y :: rest else y :: insert x rest

/-- The numbers in ascending order; equal ones keep theirs. -/
def sorted (numbers : List Binary64) : List Binary64 := numbers.foldr insert []

theorem insert_perm (x : Binary64) (xs : List Binary64) : (insert x xs).Perm (x :: xs) := by
  induction xs with
  | nil => exact .refl _
  | cons y rest ih =>
    by_cases h : x.rank ≤ y.rank
    · simp [insert, h]
    · simpa [insert, h] using (ih.cons y).trans (.swap x y rest)

theorem sorted_perm (xs : List Binary64) : (sorted xs).Perm xs := by
  induction xs with
  | nil => exact .refl _
  | cons x rest ih => exact (insert_perm x _).trans (ih.cons x)

theorem insert_pairwise (x : Binary64) {xs : List Binary64}
    (h : xs.Pairwise fun a b => a.rank ≤ b.rank) :
    (insert x xs).Pairwise fun a b => a.rank ≤ b.rank := by
  induction xs with
  | nil => simp [insert]
  | cons y rest ih =>
    have hy := List.pairwise_cons.1 h
    by_cases hx : x.rank ≤ y.rank
    · simp only [insert, hx, if_true, List.pairwise_cons]
      refine ⟨fun z hz => ?_, hy⟩
      rcases List.mem_cons.1 hz with rfl | hz
      · exact hx
      · exact Int.le_trans hx (hy.1 z hz)
    · simp only [insert, hx, if_false, List.pairwise_cons]
      refine ⟨fun z hz => ?_, ih hy.2⟩
      rcases List.mem_cons.1 ((insert_perm x rest).mem_iff.1 hz) with rfl | hz
      · omega
      · exact hy.1 z hz

theorem sorted_pairwise (xs : List Binary64) :
    (sorted xs).Pairwise fun a b => a.rank ≤ b.rank := by
  induction xs with
  | nil => exact .nil
  | cons x rest ih => exact insert_pairwise x ih

/-- The percentile of doubles; null without any. -/
def ofNumbers (numbers : List Binary64) (rank : Binary64) : Value :=
  if numbers.isEmpty then .null
  else if numbers.any Binary64.isNaN then .float .nan
  else
    match (sorted numbers)[place numbers.length rank]? with
    | some x => .float x
    | none => .null

/-- The percentile of values at a rank, which must be given and lie between 0 and 100. -/
def ofValues (values : List Value) (rank : Option Binary64) : Outcome Value :=
  match rank with
  | none => complain .rank
  | some r =>
    if isRank r then (numbers values).map fun ns => ofNumbers ns r else complain .rank

end Percentile
end EventQuery
