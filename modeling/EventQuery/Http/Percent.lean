import EventQuery.Power

/-!
# EventQuery.Http.Percent

Percent encoding: `%` and two hexadecimal digits stand for a byte, and the bytes are UTF-8. Bytes
that are not become the replacement character, one for each sequence that begins a character and
is broken off, and one for each byte that begins none.
-/

namespace EventQuery
namespace Http
namespace Percent

def hexDigit? (c : Char) : Option Nat :=
  if '0' ≤ c && c ≤ '9' then some (c.toNat - '0'.toNat)
  else if 'a' ≤ c && c ≤ 'f' then some (c.toNat - 'a'.toNat + 10)
  else if 'A' ≤ c && c ≤ 'F' then some (c.toNat - 'A'.toNat + 10)
  else none

/-- What an encoded text is made of: bytes, and characters beyond ASCII, which stand for
themselves. -/
inductive Item where
  | byte (n : Nat)
  | char (c : Char)

/-- The items of a text; a `%` without two digits after it stands for itself. -/
def items : List Char → List Item
  | '%' :: a :: b :: rest =>
    match hexDigit? a, hexDigit? b with
    | some x, some y => .byte (16 * x + y) :: items rest
    | _, _ => .byte '%'.toNat :: items (a :: b :: rest)
  | c :: rest => (if c.toNat < 128 then .byte c.toNat else .char c) :: items rest
  | [] => []

/-! ## UTF-8 -/

def replacement : Char := '\ufffd'

/-- The bytes, from and to, that may follow the first byte of a character beyond ASCII. The bounds
on the second byte leave out codes that are too long, surrogates and what is above U+10FFFF. -/
def followers? (first : Nat) : Option (List (Nat × Nat)) :=
  let any := (0x80, 0xbf)
  if first < 0xc2 then none
  else if first < 0xe0 then some [any]
  else if first < 0xf0 then
    some [(if first = 0xe0 then 0xa0 else 0x80, if first = 0xed then 0x9f else 0xbf), any]
  else if first < 0xf5 then
    some [(if first = 0xf0 then 0x90 else 0x80, if first = 0xf4 then 0x8f else 0xbf), any, any]
  else none

/-- A character that is not complete: its bits so far and the bytes that may follow. -/
structure Open where
  bits : Nat
  next : Nat × Nat
  later : List (Nat × Nat)

/-- A byte that starts a character: the character it is or opens. -/
def start (n : Nat) : List Char × Option Open :=
  if n < 128 then ([Char.ofNat n], none)
  else
    match followers? n with
    | some (next :: later) => ([], some ⟨n % twoTo (5 - later.length), next, later⟩)
    | _ => ([replacement], none)

/-- A byte after an open character: the characters that are settled, and the one then open. -/
def goOn (o : Open) (n : Nat) : List Char × Option Open :=
  if o.next.1 ≤ n && n ≤ o.next.2 then
    let bits := 64 * o.bits + n % 64
    match o.later with
    | [] => ([Char.ofNat bits], none)
    | next :: later => ([], some ⟨bits, next, later⟩)
  else
    let (chars, opened) := start n
    (replacement :: chars, opened)

/-- Reads items after a character that may be open. -/
def read (opened : Option Open) : List Item → List Char
  | [] => if opened.isSome then [replacement] else []
  | .char c :: rest => (if opened.isSome then [replacement] else []) ++ c :: read none rest
  | .byte n :: rest =>
    let (chars, next) :=
      match opened with
      | some o => goOn o n
      | none => start n
    chars ++ read next rest

/-- The text that an encoded text stands for. -/
def decode (s : List Char) : List Char := read none (items s)

end Percent
end Http
end EventQuery
