/-!
# EventQuery.Text.Case

Lower and upper case, as far as words of ASCII letters can tell. The Kelvin sign is the only other
character whose lower case is such a letter; ten others have an upper case of such letters.
-/

namespace EventQuery
namespace Text

def lowerLetter (c : Char) : Char := if c == '\u212a' then 'k' else c.toLower

/-- A text in lower case. -/
def lowered (s : String) : String := String.ofList (s.toList.map lowerLetter)

/-- Characters beyond ASCII whose upper case is made of the letters A to Z. -/
def expandedLetters : List (Char × String) := [
  ('\u00df', "SS"), ('\u0131', "I"), ('\u017f', "S"), ('\ufb00', "FF"), ('\ufb01', "FI"),
  ('\ufb02', "FL"), ('\ufb03', "FFI"), ('\ufb04', "FFL"), ('\ufb05', "ST"), ('\ufb06', "ST")]

def upperLetters (c : Char) : List Char :=
  match expandedLetters.lookup c with
  | some letters => letters.toList
  | none => [c.toUpper]

/-- A text in upper case. -/
def raised (s : List Char) : List Char := s.flatMap upperLetters

end Text
end EventQuery
