import EventQuery.Binary64.Shortest
import EventQuery.Value.Basic

/-!
# EventQuery.Json.Printer

JSON text of values: one line, a space after each comma and colon, and only ASCII characters.
Tuples are written as arrays, and a double that is not a number as its word. Decimals and times
have no JSON text.
-/

namespace EventQuery
namespace Json

/-- The escape of one UTF-16 unit. -/
def unitEscape (n : Nat) : List Char :=
  let digits := Nat.toDigits 16 n
  '\\' :: 'u' :: List.replicate (4 - digits.length) '0' ++ digits

/-- A character inside a string: two units beyond the basic plane. -/
def escapedChar (c : Char) : List Char :=
  if c == '"' then ['\\', '"']
  else if c == '\\' then ['\\', '\\']
  else if c == '\n' then ['\\', 'n']
  else if c == '\r' then ['\\', 'r']
  else if c == '\t' then ['\\', 't']
  else if c == '\x08' then ['\\', 'b']
  else if c == '\x0c' then ['\\', 'f']
  else if 0x20 ≤ c.toNat && c.toNat ≤ 0x7e then [c]
  else if c.toNat < 0x10000 then unitEscape c.toNat
  else
    let n := c.toNat - 0x10000
    unitEscape (0xd800 + n / 0x400) ++ unitEscape (0xdc00 + n % 0x400)

def stringText (s : String) : String :=
  String.ofList ('"' :: s.toList.flatMap escapedChar ++ ['"'])

def numberText (x : Binary64) : String :=
  if x.isNaN then "NaN"
  else if x.isInfinite then if x.isNegative then "-Infinity" else "Infinity"
  else x.text

mutual

/-- The JSON text of a value, if it has one. -/
def text? : Value → Option String
  | .null => some "null"
  | .bool b => some (if b then "true" else "false")
  | .int n => some (toString n)
  | .float x => some (numberText x)
  | .text s => some (stringText s)
  | .array items | .tuple items =>
    (itemTexts? items).map fun texts => "[" ++ ", ".intercalate texts ++ "]"
  | .object fields =>
    (fieldTexts? fields).map fun texts => "\x7b" ++ ", ".intercalate texts ++ "\x7d"
  | .decimal _ | .date _ | .datetime _ => none

def itemTexts? : List Value → Option (List String)
  | [] => some []
  | x :: rest =>
    match text? x, itemTexts? rest with
    | some t, some ts => some (t :: ts)
    | _, _ => none

def fieldTexts? : List (String × Value) → Option (List String)
  | [] => some []
  | (k, x) :: rest =>
    match text? x, fieldTexts? rest with
    | some t, some ts => some ((stringText k ++ ": " ++ t) :: ts)
    | _, _ => none

end

end Json
end EventQuery
