/-!
# EventQuery.Text.Blank

White space. `isBlank` is the White_Space property; `isSpacing` adds the four information
separators, which are cut off around names and expressions but not around numerals.
-/

namespace EventQuery
namespace Text

def isBlank (c : Char) : Bool :=
  let n := c.toNat
  (0x09 ≤ n && n ≤ 0x0d) || n == 0x20 || n == 0x85 || n == 0xa0 || n == 0x1680
    || (0x2000 ≤ n && n ≤ 0x200a) || n == 0x2028 || n == 0x2029 || n == 0x202f || n == 0x205f
    || n == 0x3000

def isSpacing (c : Char) : Bool := isBlank c || (0x1c ≤ c.toNat && c.toNat ≤ 0x1f)

/-- Drops what satisfies a test from both ends. -/
def strip (drop : Char → Bool) (s : List Char) : List Char :=
  ((s.dropWhile drop).reverse.dropWhile drop).reverse

/-- A text without the spacing around it. -/
def trimmed (s : String) : String := String.ofList (strip isSpacing s.toList)

end Text
end EventQuery
