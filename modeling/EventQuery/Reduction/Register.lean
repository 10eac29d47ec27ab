import EventQuery.Value.Order

/-!
# EventQuery.Reduction.Register

Values numbered in the order in which they came, equal ones by one number. A value that can be a
key is looked up in an index of such values; an array, an object or a tuple with one inside is
compared with one value after the other.
-/

namespace EventQuery

structure Register where
  /-- The values in the order of their numbers, each as it first came. -/
  values : List Value
  /-- Those that can be keys, with their numbers. -/
  index : List (Value × Nat)

namespace Register

def empty : Register := ⟨[], []⟩

/-- The number of a value; if it has none, the next number. -/
def number (r : Register) (v : Value) : Nat :=
  if v.isKey then ((r.index.find? (·.1.same v)).map (·.2)).getD r.values.length
  else r.values.findIdx (·.same v)

/-- Gives a value the next number, unless it has one. -/
def enter (r : Register) (v : Value) : Register :=
  if r.number v = r.values.length then
    ⟨r.values ++ [v], if v.isKey then r.index ++ [(v, r.values.length)] else r.index⟩
  else r

end Register
end EventQuery
