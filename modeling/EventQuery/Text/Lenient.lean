import EventQuery.Text.Case
import EventQuery.Text.Numeral
import EventQuery.Value.Basic

/-!
# EventQuery.Text.Lenient

Numbers and booleans in settings and in stored documents. Only digits `0` to `9` count here; blanks
around a number do not matter, and single underscores inside it are skipped.
-/

namespace EventQuery
namespace Lenient

/-- A text without its underscores, none of which may stand at an end or beside another. -/
def withoutUnderscores? (s : List Char) : Option (List Char) :=
  let rec single : Bool → List Char → Bool
    | last, [] => !last
    | last, c :: rest => !(last && c == '_') && single (c == '_') rest
  if s.head? == some '_' || !single false s then none else some (s.filter (· != '_'))

/-- A real number. -/
def real? (s : String) : Option Binary64 :=
  match Numeral.realOf? (Text.strip Text.isBlank s.toList) with
  | some x => some x
  | none => (withoutUnderscores? s.toList).bind Numeral.realOf?

/-- A text without a point and the zeros after it, of which there is at least one. -/
def withoutZeroFraction (s : List Char) : List Char :=
  let whole := s.takeWhile (· != '.')
  let zeros := s.drop (whole.length + 1)
  if !zeros.isEmpty && zeros.all (· == '0') then whole else s

/-- An integer; a fraction of zeros may follow it. An underscore may stand between a minus and the
first digit, but not between a plus and it. -/
def integer? (s : String) : Option Int := do
  let body := withoutZeroFraction (Text.strip Text.isBlank s.toList)
  let (negative, digits) := Numeral.splitSign body
  let signed ← withoutUnderscores? (if negative then '-' :: digits else digits)
  let n ← Numeral.digits? (if negative then signed.drop 1 else signed)
  some (if negative then -n else n)

def trueWords : List String := ["1", "on", "t", "true", "y", "yes"]
def falseWords : List String := ["0", "off", "f", "false", "n", "no"]

/-- A word for a boolean, in any case. -/
def bool? (s : String) : Option Bool :=
  let word := Text.lowered s
  if trueWords.contains word then some true
  else if falseWords.contains word then some false
  else none

end Lenient

/-- A value as a double where one is expected: a number, a boolean as zero or one, or a text that
writes a number. -/
def Value.lenientDouble? : Value → Option Binary64
  | .float x => some x
  | .int n => Binary64.ofInt? n
  | .bool b => some (.ofInt (if b then 1 else 0))
  | .text s => Lenient.real? s
  | .decimal d => some d.toBinary64
  | _ => none

end EventQuery
