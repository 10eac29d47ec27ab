import EventQuery.Backend.Client
import EventQuery.Request.Basic

/-!
# EventQuery.Project

Projects and who may query them. A project has a read key and a master key; a caller presents
either. The checks come in a fixed order, and before all others: some key was presented, the
project exists, a key fits.
-/

namespace EventQuery

structure Project where
  id : String
  readKey : String
  masterKey : String
  writeKey : Option String
  organization : Option String

/-- The keys that a caller presents. -/
structure Credentials where
  readKey : Option String
  masterKey : Option String

namespace Project

/-- A field that must be a text. -/
def required (r : Record) (field : String) : Outcome String :=
  match Record.value r field with
  | .text s => .ok s
  | _ => faulty .malformed

/-- A field that may be missing or null. -/
def optional (r : Record) (field : String) : Outcome (Option String) :=
  match Record.value r field with
  | .text s => .ok (some s)
  | .null => .ok none
  | _ => faulty .malformed

/-- Reads a project from its row. -/
def ofRecord (r : Record) : Outcome Project := do
  return {
    id := ← required r "project_id"
    readKey := ← required r "read_key"
    masterKey := ← required r "master_key"
    writeKey := ← optional r "write_key"
    organization := ← optional r "organization" }

/-- All fields by name. -/
def toRecord (p : Project) : Record :=
  [("project_id", .text p.id), ("read_key", .text p.readKey),
    ("write_key", .ofText? p.writeKey), ("master_key", .text p.masterKey),
    ("organization", .ofText? p.organization)]

/-- Whether a presented key is the one expected; an empty key never is. -/
def sameKey (presented : Option String) (expected : String) : Bool :=
  match present presented with
  | none => false
  | some key => !expected.isEmpty && key == expected

/-- Some key must be presented. -/
def requireKey (c : Credentials) : Outcome Unit :=
  if (present c.readKey).isNone && (present c.masterKey).isNone then .error .noCredentials
  else .ok ()

/-- Accepts the read key as read key and the master key as master key. -/
def authorize (p : Project) (c : Credentials) : Outcome Unit :=
  match requireKey c with
  | .error e => .error e
  | .ok () =>
    if sameKey c.readKey p.readKey || sameKey c.masterKey p.masterKey then .ok ()
    else .error .keyNotAuthorized

/-- Looks a project up; a name that cannot be a project's is not looked up. -/
def find (s : Settings) (id : String) : Run Project :=
  if Name.isFlat id then do
    let statement ← Run.ofOutcome (Statement.project (.text s.projectsTable) (.text id))
    match ← Client.fetchOne s statement with
    | none => .fail .projectNotFound
    | some row => .ofOutcome (ofRecord row)
  else .fail .projectNotFound

/-- Lets a caller in to the queries of a project. -/
def enter (s : Settings) (id : String) (c : Credentials) : Run Project := do
  .ofOutcome (requireKey c)
  let p ← find s id
  .ofOutcome (authorize p c)
  return p

/-- Lets a caller in to the administration of a project, with the master key only. -/
def enterAsMaster (s : Settings) (id : String) (masterKey : Option String) : Run Project := do
  if (present masterKey).isNone then .fail .noCredentials
  let p ← find s id
  if sameKey masterKey p.masterKey then return p else .fail .keyNotAuthorized

end Project
end EventQuery
