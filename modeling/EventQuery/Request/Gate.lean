import EventQuery.Request.Basic
import EventQuery.Text.Case
import EventQuery.Text.Numeral
import EventQuery.Text.Pieces

/-!
# EventQuery.Request.Gate

From untrusted parameters to a request. All parameters arrive as text. Required ones that are
missing are reported before any other fault, after the collection; every name passes the
allow-list, and every option gets its typed form.
-/

namespace EventQuery

/-- The parameters of a query, as they were given. -/
structure Params where
  readKey : Option String := none
  masterKey : Option String := none
  eventCollection : Option String := none
  targetProperty : Option String := none
  percentile : Option String := none
  groupBy : Option String := none
  latest : Option String := none
  interval : Option String := none
  outliers : Option String := none
  outliersIn : Option String := none
  filters : Option String := none
  timeframe : Option String := none
  concatResults : Option String := none

namespace Gate

/-- The row cap: a positive integer, or the default when none is given. -/
def latest (raw : Option String) (default : Int) : Outcome Int :=
  match present raw with
  | none => .ok default
  | some s =>
    match Numeral.integer? s with
    | none => complain .latest
    | some n => if n ≤ 0 then complain .latest else .ok n

/-- A percentile rank from 0 to 100. -/
def rank (raw : String) : Outcome Binary64 :=
  match Numeral.real? raw with
  | none => complain .rank
  | some x =>
    if (Binary64.ofInt 0).atMost x && x.atMost (.ofInt 100) then .ok x else complain .rank

def interval (raw : Option String) : Outcome (Option Interval) :=
  match present raw with
  | none => .ok none
  | some s =>
    match Interval.ofName? s with
    | some i => .ok (some i)
    | none => complain (.interval (Complaint.choices (Interval.all.map Interval.name)))

def outliers (raw : Option String) : Outcome OutlierMode :=
  match present raw with
  | none => .ok .include
  | some s =>
    match OutlierMode.ofName? s with
    | some m => .ok m
    | none => complain (.outliers (Complaint.choices (OutlierMode.all.map OutlierMode.name)))

/-- Whether a switch is on: one of three words in any case, spacing around it apart. -/
def flag (raw : Option String) : Bool :=
  match raw with
  | none => false
  | some s => ["true", "1", "yes"].contains (Text.lowered (Text.trimmed s))

/-- An optional property name; an empty one counts as missing. -/
def optionalProperty (what : String) (raw : Option String) : Outcome (Option String) :=
  match present raw with
  | none => .ok none
  | some s => (Name.property what (.text s)).map some

/-- Property names, in order; the first that is not accepted decides. -/
def properties (what : String) : List String → Outcome (List String)
  | [] => .ok []
  | s :: rest =>
    match Name.property what (.text s) with
    | .error e => .error e
    | .ok p =>
      match properties what rest with
      | .error e => .error e
      | .ok ps => .ok (p :: ps)

/-- The properties of an extraction, separated by commas; spacing around a name does not count. -/
def targets (raw : Option String) : Outcome (List String) :=
  match present raw with
  | none => .ok []
  | some s =>
    properties "target property"
      ((Text.pieces (· == ',') s.toList).map fun piece => Text.trimmed (String.ofList piece))

/-- The target of an archetype other than an extraction. -/
def target (a : Archetype) (raw : Option String) : Outcome (Option String) :=
  match optionalProperty "target property" raw with
  | .error e => .error e
  | .ok none => if a.requiresTarget then .error .targetNotProvided else .ok none
  | .ok (some p) => .ok (some p)

/-- The rank of an archetype: given, fixed or none. -/
def requestRank (a : Archetype) (raw : Option String) : Outcome (Option Binary64) :=
  if a.requiresRank then
    match present raw with
    | none => .error .targetNotProvided
    | some s => (rank s).map some
  else .ok a.fixedRank?

/-- The property whose outliers are left out or kept alone; it must be given then. -/
def outliersIn (mode : OutlierMode) (raw : Option String) : Outcome (Option String) :=
  if mode = .include then .ok none
  else
    match present raw with
    | none => .error .targetNotProvided
    | some s => (Name.property "outliers_in property" (.text s)).map some

/-- The filters of a request; what is no JSON array means none. -/
def filters (raw : Option String) : Outcome (List Filter) := Filter.parse (.ofText? raw)

/-- Checks and reads all parameters of a query. -/
def request (a : Archetype) (project : String) (p : Params) (defaultLatest : Int) :
    Outcome Request := do
  let extracts := a = .extraction
  let collection ← Name.flat "event collection" (.ofText? p.eventCollection)
  let targets ← if extracts then targets p.targetProperty else .ok []
  let target ← if extracts then .ok none else target a p.targetProperty
  let rank ← requestRank a p.percentile
  let mode ← outliers p.outliers
  let outliersIn ← outliersIn mode p.outliersIn
  let groupBy ← if extracts then .ok none else optionalProperty "group_by property" p.groupBy
  let latest ← latest p.latest defaultLatest
  let interval ← if extracts then .ok none else interval p.interval
  let filters ← filters p.filters
  return {
    archetype := a, project, collection, target, targets, rank, groupBy, latest, interval
    outliers := mode, outliersIn, filters
    timeframe := present p.timeframe
    byColumn := extracts && flag p.concatResults }

end Gate
end EventQuery
