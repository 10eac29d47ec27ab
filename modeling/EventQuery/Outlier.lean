import EventQuery.Archetype
import EventQuery.Backend.Client
import EventQuery.Statement.Predicate

/-!
# EventQuery.Outlier

The band around the mean of a property: a number of standard deviations to each side. Mean and
standard deviation are of the whole collection; they are kept in the cache, and computed by the
store the first time that they are asked for.
-/

namespace EventQuery

/-- Mean and standard deviation, missing when the property has no values. -/
structure Statistics where
  mean : Option Binary64
  stddev : Option Binary64
  deriving DecidableEq

namespace Statistics

/-- A number that may be missing or null. -/
def field? (r : Record) (name : String) : Option (Option Binary64) :=
  match Record.value r name with
  | .null => some none
  | v => v.lenientDouble?.map some

/-- Reads statistics from a document or a row. -/
def ofRecord? (r : Record) : Option Statistics :=
  match field? r "mean", field? r "stddev" with
  | some mean, some stddev => some ⟨mean, stddev⟩
  | _, _ => none

def number (x : Option Binary64) : Value := (x.map Value.float).getD .null

def toRecord (s : Statistics) : Record := [("mean", number s.mean), ("stddev", number s.stddev)]

/-- The statistics of a property: those in the cache, or else those that the store computes, which
then go into the cache. -/
def get (s : Settings) (project collection property : Value) : Run Statistics := do
  let key := Name.statsKey project.displayed collection.displayed property.displayed
  match ← Client.read s key with
  | some fields =>
    match ofRecord? fields with
    | some found => return found
    | none => .fail (.badQuery (.cachedStatistics key))
  | none => do
    let statement ← Run.ofOutcome (Statement.statistics project collection property)
    let row ← Client.fetchOne s statement
    match ofRecord? (row.getD []) with
    | none => .fail (.fault .malformed)
    | some computed => do
      Client.write s key (.object computed.toRecord)
      return computed

/-- The ends of the band of a given width; without a standard deviation the band has none. -/
def band (mean : Binary64) (stddev : Option Binary64) (width : Binary64) : Binary64 × Binary64 :=
  let deviation := (stddev.filter (!·.isZero)).getD .zero
  let half := width.mul deviation
  (mean.sub half, mean.add half)

/-- The condition of a mode on a column. Without a mean nothing is an outlier. -/
def predicate (s : Statistics) (column : Value) (mode : OutlierMode) (width : Binary64) :
    Outcome (Option Predicate) :=
  if mode = .include then .ok none
  else
    (Name.property "column" column).map fun column =>
      match s.mean with
      | none => if mode = .exclude then none else some .nothing
      | some mean =>
        let (low, high) := band mean s.stddev width
        if mode = .exclude then some (.inside column (.float low) (.float high))
        else some (.outside column (.float low) (.float high))

end Statistics
end EventQuery
