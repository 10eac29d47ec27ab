import EventQuery.Proofs.Statistics.Document

/-!
# EventQuery.Proofs.Statistics.Steps

Asking for statistics step by step: a document that is found is reused (`reuse`); without one the
store measures (`measure`), its answer is judged, and what it has measured is kept (`keep`). `get_eq`
puts them together.
-/

namespace EventQuery

/-! ## Calls of the cache -/

namespace Client

variable {s : Settings}

theorem read_eq_get (htime : isOutOfTime s = false) (key : String) :
    ∃ next, read s key = .get key next ∧ next (.ok none) = .done (.ok none) ∧
      ∀ text, next (.ok (some text)) = .done ((document key text).map some) := by
  unfold read
  rw [htime]
  exact ⟨_, rfl, rfl, fun _ => rfl⟩

theorem write_eq_set (htime : isOutOfTime s = false) (key : String) {v : Value} {text : String}
    (htext : Json.text? v = some text) :
    ∃ next, write s key v = .set key text next ∧ next (.ok ()) = .done (.ok ()) := by
  unfold write
  rw [htext, htime]
  exact ⟨_, rfl, rfl⟩

end Client

namespace Statistics

/-- A document under a key is read as these statistics. -/
def Holds (key text : String) (stats : Statistics) : Prop :=
  ∃ fields, Client.document key text = .ok fields ∧ ofRecord? fields = some stats

theorem holds_text (key : String) (stats : Statistics) : Holds key stats.text stats :=
  ⟨stats.toRecord, stats.document_toRecord key, stats.ofRecord?_toRecord⟩

theorem Holds.unique {key text : String} {stats stats' : Statistics} (h : Holds key text stats)
    (h' : Holds key text stats') : stats = stats' := by
  obtain ⟨fields, hfields, hstats⟩ := h
  obtain ⟨fields', hfields', hstats'⟩ := h'
  cases hfields.symm.trans hfields'
  exact Option.some.inj (hstats.symm.trans hstats')

/-- The statistics in the rows of an answer. -/
def ofRows? (rows : List Record) : Option Statistics :=
  ofRecord? ((rows.map Client.decodeRecord).head?.getD [])

/-! ## The parts -/

def keyOf (project collection property : Value) : String :=
  Name.statsKey project.displayed collection.displayed property.displayed

def reuse (key : String) (fields : Record) : Run Statistics :=
  match ofRecord? fields with
  | some found => .done (.ok found)
  | none => .fail (.badQuery (.cachedStatistics key))

def keep (s : Settings) (key : String) (stats : Statistics) : Run Statistics :=
  (Client.write s key (.object stats.toRecord)).bind fun _ => .done (.ok stats)

def judge (s : Settings) (key : String) (row : Option Record) : Run Statistics :=
  match ofRecord? (row.getD []) with
  | none => .fail (.fault .malformed)
  | some computed => keep s key computed

def measure (s : Settings) (key : String) (st : Statement) : Run Statistics :=
  (Client.fetchOne s st).bind (judge s key)

theorem get_eq (s : Settings) (project collection property : Value) :
    get s project collection property =
      (Client.read s (keyOf project collection property)).bind fun cached =>
        cached.elim ((Run.ofOutcome (Statement.statistics project collection property)).bind
          (measure s (keyOf project collection property)))
          (reuse (keyOf project collection property)) := by
  show (Client.read s (keyOf project collection property)).bind _ = _
  congr 1
  funext cached
  cases cached with
  | none => rfl
  | some fields => rfl

end Statistics
end EventQuery
