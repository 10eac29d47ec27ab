import EventQuery.Value.Basic
import EventQuery.Complaint

/-!
# EventQuery.Failure

How an operation fails. A refusal is an answer to the caller, of one of five kinds, with a status
and an envelope; a fault is a condition that no refusal covers.
-/

namespace EventQuery

/-- The kinds of refusal. -/
inductive Refusal where
  | badQuery | targetNotProvided | keyNotAuthorized | noCredentials | projectNotFound
  deriving DecidableEq

namespace Refusal

def name : Refusal → String
  | badQuery => "BadQueryError"
  | targetNotProvided => "TargetNotProvidedError"
  | keyNotAuthorized => "KeyNotAuthorizedError"
  | noCredentials => "NoCredentialsSentError"
  | projectNotFound => "ProjectNotFoundError"

/-- The status of the answer. -/
def status : Refusal → Nat
  | badQuery | targetNotProvided => 400
  | keyNotAuthorized => 401
  | noCredentials => 403
  | projectNotFound => 404

/-- The text of a refusal: its message, or else its name. -/
def text (r : Refusal) (message : Option String) : String :=
  match message with
  | some m => if m.isEmpty then r.name else m
  | none => r.name

/-- The body of the answer; an empty message is left out. -/
def envelope (r : Refusal) (message : Option String) : Record :=
  let base : Record := [("ok", .bool false), ("results", .text r.name)]
  match message with
  | some m => if m.isEmpty then base else base ++ [("message", .text m)]
  | none => base

end Refusal

/-- What keeps a backend from answering. -/
inductive OutageKind where
  | statement | connection | network | cache | timeout
  deriving DecidableEq

/-- The name of an outage that has no words. -/
def OutageKind.name : OutageKind → String
  | statement => "PostgresError"
  | connection => "InterfaceError"
  | network => "OSError"
  | cache => "RedisError"
  | timeout => "TimeoutError"

/-- A failed call, with the words of the backend. -/
structure Outage where
  kind : OutageKind
  text : String
  deriving DecidableEq

/-- Conditions that no refusal covers. -/
inductive Fault where
  /-- A time whose UTC year is not one of 1 to 9999. -/
  | yearOutOfRange
  /-- A bucket or a reference date in a year that is not one of 1 to 9999. -/
  | yearUnnamed
  /-- An integer with more digits than are read or shown. -/
  | numeralTooLong
  /-- A number too large for a double. -/
  | beyondDouble
  /-- An order of a decimal and NaN, or a sum of infinite decimals of both signs. -/
  | undefinedDecimal
  /-- A date before the first day of year 1. -/
  | beforeFirstDay
  /-- A value that has no JSON text. -/
  | notJson
  /-- A row without a field that it must have. -/
  | missingField
  /-- Something else where a text is looked into. -/
  | notText
  /-- An array or an object where a key is looked up. -/
  | notKey
  /-- A stored row or setting of the wrong form. -/
  | malformed
  /-- A list setting that is not JSON. -/
  | unreadableList
  /-- A failure of a kind that the backend is not known for. -/
  | outage (kind : OutageKind)
  deriving DecidableEq

inductive Failure where
  | noCredentials
  | projectNotFound
  | keyNotAuthorized
  | targetNotProvided
  | badQuery (why : Complaint)
  | fault (cause : Fault)
  deriving DecidableEq

namespace Failure

/-- The kind of refusal and its message; a fault is none. -/
def refusal? : Failure → Option (Refusal × Option String)
  | noCredentials => some (.noCredentials, none)
  | projectNotFound => some (.projectNotFound, none)
  | keyNotAuthorized => some (.keyNotAuthorized, none)
  | targetNotProvided => some (.targetNotProvided, none)
  | badQuery why => some (.badQuery, some why.message)
  | fault _ => none

end Failure

/-- The outcome of an operation. -/
abbrev Outcome (α : Type) := Except Failure α

def complain {α : Type} (why : Complaint) : Outcome α := .error (.badQuery why)

def faulty {α : Type} (cause : Fault) : Outcome α := .error (.fault cause)

end EventQuery
