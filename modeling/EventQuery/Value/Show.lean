import EventQuery.Text.Numeral
import EventQuery.Text.Quoted
import EventQuery.Binary64.Shortest
import EventQuery.Value.Basic

/-!
# EventQuery.Value.Show

Values as messages show them. `shown` quotes text and tells the kinds apart; `displayed` is the
same except that text, decimals and times stand for themselves. An integer with more digits than
`Numeral.maxDigits` is not shown, so not every value `isShowable`.
-/

namespace EventQuery

/-- A span of seconds, negative ones as a negative day and the seconds after it. -/
def shownSpan (seconds : Int) : String :=
  let days := seconds / 86400
  let rest := seconds % 86400
  let parts := (if days = 0 then [] else ["days=" ++ toString days])
    ++ (if rest = 0 then [] else ["seconds=" ++ toString rest])
  "datetime.timedelta(" ++ ", ".intercalate parts ++ ")"

def shownOffset (seconds : Int) : String :=
  if seconds = 0 then "datetime.timezone.utc"
  else "datetime.timezone(" ++ shownSpan seconds ++ ")"

def Date.shown (d : Date) : String :=
  let c := d.civil
  "datetime.date(" ++ ", ".intercalate [toString c.year, toString c.month, toString c.day] ++ ")"

/-- The parts of the clock, without the seconds and microseconds that are zero at the end. -/
def DateTime.shown (t : DateTime) : String :=
  let c := t.date.civil
  let clock := [c.year, c.month, c.day, t.hour, t.minute]
    ++ (if t.second = 0 && t.microsecond = 0 then [] else [t.second])
    ++ (if t.microsecond = 0 then [] else [t.microsecond])
  let offset := (t.offset.map fun o => ["tzinfo=" ++ shownOffset o]).getD []
  "datetime.datetime(" ++ ", ".intercalate (clock.map toString ++ offset) ++ ")"

namespace Value

mutual

def shown : Value → String
  | null => "None"
  | bool b => if b then "True" else "False"
  | int n => toString n
  | float x => x.text
  | text s => Text.quoted s
  | decimal d => "Decimal('" ++ d.text ++ "')"
  | date d => d.shown
  | datetime t => t.shown
  | array items => "[" ++ ", ".intercalate (shownItems items) ++ "]"
  | tuple items =>
    match shownItems items with
    | [one] => "(" ++ one ++ ",)"
    | many => "(" ++ ", ".intercalate many ++ ")"
  | object fields => "\x7b" ++ ", ".intercalate (shownFields fields) ++ "\x7d"

def shownItems : List Value → List String
  | [] => []
  | x :: rest => x.shown :: shownItems rest

def shownFields : List (String × Value) → List String
  | [] => []
  | (k, x) :: rest => (Text.quoted k ++ ": " ++ x.shown) :: shownFields rest

end

mutual

/-- Whether no integer in a value has too many digits to be shown. -/
def isShowable : Value → Bool
  | int n => (Nat.toDigits 10 n.natAbs).length ≤ Numeral.maxDigits
  | array items | tuple items => areShowable items
  | object fields => fieldsShowable fields
  | _ => true

def areShowable : List Value → Bool
  | [] => true
  | x :: rest => x.isShowable && areShowable rest

def fieldsShowable : List (String × Value) → Bool
  | [] => true
  | (_, x) :: rest => x.isShowable && fieldsShowable rest

end

def displayed : Value → String
  | text s => s
  | decimal d => d.text
  | date d => d.text
  | datetime t => String.ofList (t.text.toList.map fun c => if c == 'T' then ' ' else c)
  | v => v.shown

end Value
end EventQuery
