import EventQuery.Proofs.Reduction.Group

/-!
# EventQuery.Proofs.Reduction.Distinct

The distinct values of a list are those that equal no value before them (`distinct_eq_firsts`):
what equals a value that was left out equals the one for which it was left out. So no two are equal,
every value has an equal among them, and nothing is left out when they are listed once more. Two
lists whose values have equals in each other have as many distinct values (`length_le_of_covers`),
and so the order of the values does not matter for their number (`distinct_keeps_firsts`).
-/

namespace EventQuery
namespace Reduction

variable {values values' : List Value}

/-- The values of a list that equal no value before them. -/
def firsts (values : List Value) : List Value :=
  (values.zipIdx.filter fun e => (values.take e.2).all fun u => !u.same e.1).map Prod.fst

theorem firsts_concat (values : List Value) (v : Value) :
    firsts (values ++ [v])
      = if values.any (·.same v) then firsts values else firsts values ++ [v] := by
  have hbefore : values.zipIdx.filter (fun e => ((values ++ [v]).take e.2).all fun u => !u.same e.1)
      = values.zipIdx.filter fun e => (values.take e.2).all fun u => !u.same e.1 := by
    refine List.filter_congr fun e he => ?_
    have hplace : e.2 < values.length := by simpa using (List.mem_zipIdx he).2.1
    rw [List.take_append_of_le_length (Nat.le_of_lt hplace)]
  have hlast : ((values ++ [v]).take (0 + values.length)).all (fun u => !u.same v)
      = !values.any (·.same v) := by
    rw [Nat.zero_add, List.take_left, List.all_eq_not_any_not]
    simp
  unfold firsts
  rw [List.zipIdx_append, List.filter_append, hbefore, List.zipIdx_singleton, List.filter_singleton,
    hlast]
  cases values.any (·.same v) <;> simp

theorem any_distinct (values : List Value) (v : Value) :
    (distinct values).any (·.same v) = values.any (·.same v) := by
  rw [Bool.eq_iff_iff, any_same_eq_true_iff, any_same_eq_true_iff]
  constructor
  · rintro ⟨k, hk, hsame⟩
    exact ⟨k, (distinct_sublist values).subset hk, hsame⟩
  · rintro ⟨u, hu, hsame⟩
    obtain ⟨k, hk, rfl | hku⟩ := exists_mem_distinct hu
    · exact ⟨k, hk, hsame⟩
    · exact ⟨k, hk, Value.same_trans hku hsame⟩

theorem distinct_eq_firsts (values : List Value) : distinct values = firsts values := by
  induction values using List.reverseRecOn with
  | nil => rfl
  | append_singleton values v ih => rw [distinct_concat, firsts_concat, any_distinct, ih]

/-- Values that are apart are all kept. -/
theorem distinct_eq_self (h : values.Pairwise Apart) : distinct values = values := by
  induction values using List.reverseRecOn with
  | nil => rfl
  | append_singleton values v ih =>
    obtain ⟨hbefore, _, hlast⟩ := List.pairwise_append.mp h
    have hnew : values.any (·.same v) = false := by
      rw [List.any_eq_false]
      intro u hu
      rw [hlast u hu v (by simp)]
      exact Bool.false_ne_true
    rw [distinct_concat, ih hbefore, hnew, if_neg Bool.false_ne_true]

/-! ## Values without NaN -/

/-- Each value of a list has an equal in another. -/
def Covers (values values' : List Value) : Prop := ∀ v ∈ values', ∃ u ∈ values, u.same v = true

theorem covers_distinct (h : ∀ v ∈ values, v.isDefinite = true) :
    Covers (distinct values) values := by
  intro v hv
  obtain ⟨k, hk, rfl | hsame⟩ := exists_mem_distinct hv
  · exact ⟨k, hk, Value.same_self (h k hv)⟩
  · exact ⟨k, hk, hsame⟩

theorem length_le_of_covers (h : ∀ v ∈ values, v.isDefinite = true)
    (hapart : values'.Pairwise Apart) (hcovers : Covers values values') :
    values'.length ≤ values.length := by
  -- an equal for each value; two values that are apart do not share theirs
  have hchoice : ∀ v, ∃ u, v ∈ values' → u ∈ values ∧ u.same v = true := by
    intro v
    by_cases hv : v ∈ values'
    · obtain ⟨u, hu, hsame⟩ := hcovers v hv
      exact ⟨u, fun _ => ⟨hu, hsame⟩⟩
    · exact ⟨v, fun hmem => absurd hmem hv⟩
  choose equal hequal using hchoice
  have hnodup : (values'.map equal).Nodup := by
    refine List.pairwise_map.mpr (hapart.imp_of_mem fun {v w} hv hw hvw heq => ?_)
    obtain ⟨hu, hsame⟩ := hequal v hv
    have hsame' := (hequal w hw).2
    rw [← heq] at hsame'
    have hequals := Value.same_trans (Value.same_symm (h _ hu) hsame) hsame'
    rw [hvw] at hequals
    cases hequals
  have hsubset : values'.map equal ⊆ values := by
    intro u hu
    obtain ⟨v, hv, rfl⟩ := List.mem_map.mp hu
    exact (hequal v hv).1
  simpa using (List.subperm_of_subset hnodup hsubset).length_le

theorem length_distinct_of_perm (h : ∀ v ∈ values, v.isDefinite = true)
    (hperm : values'.Perm values) : (distinct values').length = (distinct values).length := by
  have hle : ∀ {xs ys : List Value}, (∀ v ∈ xs, v.isDefinite = true) → ys.Perm xs →
      (distinct ys).length ≤ (distinct xs).length := by
    intro xs ys hxs hys
    refine length_le_of_covers (fun v hv => hxs v ((distinct_sublist xs).subset hv))
      (pairwise_distinct ys) fun v hv => ?_
    exact covers_distinct hxs v (hys.subset ((distinct_sublist ys).subset hv))
  exact Nat.le_antisymm (hle h hperm) (hle (fun v hv => h v (hperm.subset hv)) hperm.symm)

theorem distinct_keeps_firsts (h : ∀ v ∈ values, v.isDefinite = true) :
    distinct values = firsts values ∧ (distinct values).Sublist values ∧
      (distinct values).Pairwise (fun u v => u.same v = false ∧ v.same u = false) ∧
      (∀ v ∈ values, ∃ u ∈ distinct values, u.same v = true) ∧
      distinct (distinct values) = distinct values ∧
      ∀ values', values'.Perm values → (distinct values').length = (distinct values).length ∧
        ∀ rows target rank, presentValues rows target = values' →
          reduce rows .countUnique target rank = .ok (.int (distinct values).length) := by
  refine ⟨distinct_eq_firsts values, distinct_sublist values, ?_, covers_distinct h,
    distinct_eq_self (pairwise_distinct values), fun values' hperm => ⟨?_, ?_⟩⟩
  · refine (pairwise_distinct values).imp_of_mem fun {u v} hu hv hapart => ⟨hapart, ?_⟩
    have hmem := (distinct_sublist values).subset
    rw [Value.same_comm (h v (hmem hv)) (h u (hmem hu))]
    exact hapart
  · exact length_distinct_of_perm h hperm
  · rintro rows target rank rfl
    rw [← length_distinct_of_perm h hperm]
    rfl

/-- One as a number, a truth value and a double, beside sequences that hold it and objects that name
it in two orders. -/
def mixedValues : List Value :=
  [.int 1, .array [.int 1], .bool true, .tuple [.int 1, .array [.int 2]], .null,
    .array [.bool true], .float (.ofInt 1), .tuple [.float (.ofInt 1), .array [.int 2]],
    .text "1", .object [("a", .int 1), ("b", .null)],
    .object [("b", .null), ("a", .bool true)], .null]

theorem distinct_keeps_firsts_mixedValues :
    (∀ v ∈ mixedValues, v.isDefinite = true) ∧ (distinct mixedValues).length = 6 ∧
      distinct (distinct mixedValues) = distinct mixedValues ∧
      (distinct mixedValues.reverse).length = 6 := by
  have hdefinite : ∀ v ∈ mixedValues, v.isDefinite = true := by decide
  have hlength : (distinct mixedValues).length = 6 := by decide +kernel
  obtain ⟨_, _, _, _, hagain, hperm⟩ := distinct_keeps_firsts hdefinite
  exact ⟨hdefinite, hlength, hagain, (hperm _ mixedValues.reverse_perm).1.trans hlength⟩

end Reduction
end EventQuery
