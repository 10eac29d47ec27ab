import EventQuery.Text.Numeral
import EventQuery.Value.Basic

/-!
# EventQuery.Json.Reader

Reads JSON text. The words `NaN`, `Infinity` and `-Infinity` are numbers, an integer has at most
`Numeral.maxDigits` digits, control characters may not stand in strings, and of several fields of
one name the last value counts, in the place of the first. Each reader of a part takes it from the
front of the text and returns the rest; `read?` wants nothing but white space left.
-/

namespace EventQuery
namespace Json

def isSpace (c : Char) : Bool := c == ' ' || c == '\t' || c == '\n' || c == '\r'

def skipSpace (s : List Char) : List Char := s.dropWhile isSpace

/-! ## Strings -/

def hexValue? (c : Char) : Option Nat :=
  if c.isDigit then some (c.toNat - '0'.toNat)
  else if 'a' ≤ c && c ≤ 'f' then some (c.toNat - 'a'.toNat + 10)
  else if 'A' ≤ c && c ≤ 'F' then some (c.toNat - 'A'.toNat + 10)
  else none

/-- The number of four hexadecimal digits. -/
def unit? (a b c d : Char) : Option Nat := do
  some (((← hexValue? a) * 16 + (← hexValue? b)) * 256 + (← hexValue? c) * 16 + (← hexValue? d))

/-- The character of a one-letter escape. -/
def escape? (c : Char) : Option Char :=
  match c with
  | '"' | '\\' | '/' => some c
  | 'b' => some '\x08'
  | 'f' => some '\x0c'
  | 'n' => some '\n'
  | 'r' => some '\r'
  | 't' => some '\t'
  | _ => none

def isHigh (unit : Nat) : Bool := 0xd800 ≤ unit && unit < 0xdc00
def isLow (unit : Nat) : Bool := 0xdc00 ≤ unit && unit < 0xe000

/-- A UTF-16 unit as a character; half of a pair standing alone becomes the replacement
character. -/
def unitChar (unit : Nat) : Char :=
  if isHigh unit || isLow unit then '\ufffd' else Char.ofNat unit

/-- The characters of a string up to its closing quote, and the rest after it. A high unit waits
for the low one that may follow. -/
def chars? (pending : Option Nat) : List Char → Option (List Char × List Char)
  | '"' :: rest => some ((pending.map unitChar).toList, rest)
  | '\\' :: 'u' :: a :: b :: c :: d :: rest => do
    let unit ← unit? a b c d
    match pending with
    | some high =>
      if isLow unit then
        let (cs, rest) ← chars? none rest
        some (Char.ofNat (0x10000 + (high - 0xd800) * 0x400 + (unit - 0xdc00)) :: cs, rest)
      else if isHigh unit then
        let (cs, rest) ← chars? (some unit) rest
        some (unitChar high :: cs, rest)
      else
        let (cs, rest) ← chars? none rest
        some (unitChar high :: unitChar unit :: cs, rest)
    | none =>
      if isHigh unit then chars? (some unit) rest
      else
        let (cs, rest) ← chars? none rest
        some (unitChar unit :: cs, rest)
  | '\\' :: c :: rest => do
    let e ← escape? c
    let (cs, rest) ← chars? none rest
    some ((pending.map unitChar).toList ++ e :: cs, rest)
  | c :: rest =>
    if c == '\\' || c.toNat < 0x20 then none
    else do
      let (cs, rest) ← chars? none rest
      some ((pending.map unitChar).toList ++ c :: cs, rest)
  | [] => none

/-- A string after its opening quote. -/
def string? (s : List Char) : Option (String × List Char) :=
  (chars? none s).map fun (cs, rest) => (String.ofList cs, rest)

/-! ## Numbers -/

/-- The whole part: digits without a needless zero in front. -/
def whole? (s : List Char) : Option (List Char × List Char) :=
  match s with
  | '0' :: rest => some (['0'], rest)
  | _ =>
    let digits := s.takeWhile Char.isDigit
    if digits.isEmpty then none else some (digits, s.dropWhile Char.isDigit)

/-- A point and digits, or nothing. -/
def fraction (s : List Char) : List Char × List Char :=
  match s with
  | '.' :: rest =>
    let digits := rest.takeWhile Char.isDigit
    if digits.isEmpty then ([], s) else ('.' :: digits, rest.dropWhile Char.isDigit)
  | _ => ([], s)

/-- An `e`, an optional sign and digits, or nothing. -/
def exponent (s : List Char) : List Char × List Char :=
  match s with
  | c :: rest =>
    let (sign, digitsOn) :=
      match rest with
      | '+' :: r => (['+'], r)
      | '-' :: r => (['-'], r)
      | r => ([], r)
    let digits := digitsOn.takeWhile Char.isDigit
    if (c == 'e' || c == 'E') && !digits.isEmpty then
      ('e' :: sign ++ digits, digitsOn.dropWhile Char.isDigit)
    else ([], s)
  | [] => ([], [])

/-- A number after its sign: an integer unless it has a fraction or an exponent. -/
def unsigned? (negative : Bool) (s : List Char) : Option (Value × List Char) := do
  let (whole, rest) ← whole? s
  let (fraction, rest) := fraction rest
  let (exponent, rest) := exponent rest
  if fraction.isEmpty && exponent.isEmpty then
    let n ← Numeral.digits? whole
    some (.int (if negative then -n else n), rest)
  else
    let (c, e) ← Numeral.decimal? (whole ++ fraction ++ exponent)
    some (.float (.ofDecimal negative c e), rest)

/-! ## Values -/

/-- The rest after a word at the front. -/
def after? (word : String) (s : List Char) : Option (List Char) :=
  if word.toList.isPrefixOf s then some (s.drop word.length) else none

/-- A word that is a value by itself. -/
def word? (s : List Char) : Option (Value × List Char) :=
  [("null", Value.null), ("true", .bool true), ("false", .bool false), ("NaN", .float .nan),
    ("Infinity", .float (.infinity false)), ("-Infinity", .float (.infinity true))].findSome?
    fun (word, v) => (after? word s).map fun rest => (v, rest)

mutual

/-- A value at the front of a text, nested at most as deeply as the first argument says. -/
def value? : Nat → List Char → Option (Value × List Char)
  | 0, _ => none
  | depth + 1, s =>
    match s with
    | '"' :: rest => (string? rest).map fun (t, rest) => (.text t, rest)
    | '[' :: rest =>
      match skipSpace rest with
      | ']' :: rest => some (.array [], rest)
      | rest => (items? depth rest).map fun (vs, rest) => (.array vs, rest)
    | '\x7b' :: rest =>
      match skipSpace rest with
      | '\x7d' :: rest => some (.object [], rest)
      | rest => (fields? depth rest).map fun (fs, rest) => (.object (Assoc.ofList fs), rest)
    | s =>
      match word? s with
      | some found => some found
      | none =>
        match s with
        | '-' :: rest => unsigned? true rest
        | s => unsigned? false s

/-- Elements up to the closing bracket. -/
def items? : Nat → List Char → Option (List Value × List Char)
  | 0, _ => none
  | depth + 1, s =>
    match value? depth s with
    | none => none
    | some (v, rest) =>
      match skipSpace rest with
      | ']' :: rest => some ([v], rest)
      | ',' :: rest =>
        (items? depth (skipSpace rest)).map fun (vs, rest) => (v :: vs, rest)
      | _ => none

/-- Fields up to the closing brace. -/
def fields? : Nat → List Char → Option (List (String × Value) × List Char)
  | 0, _ => none
  | depth + 1, s =>
    match s with
    | '"' :: rest =>
      match string? rest with
      | none => none
      | some (k, rest) =>
        match skipSpace rest with
        | ':' :: rest =>
          match value? depth (skipSpace rest) with
          | none => none
          | some (v, rest) =>
            match skipSpace rest with
            | '\x7d' :: rest => some ([(k, v)], rest)
            | ',' :: rest =>
              (fields? depth (skipSpace rest)).map fun (fs, rest) => ((k, v) :: fs, rest)
            | _ => none
        | _ => none
    | _ => none

end

/-- Reads one value and nothing else. Every level of nesting and every element takes at least one
character, so the length of the text bounds both. -/
def read? (text : String) : Option Value :=
  let s := text.toList
  match value? (s.length + 1) (skipSpace s) with
  | some (v, rest) => if (skipSpace rest).isEmpty then some v else none
  | none => none

end Json
end EventQuery
