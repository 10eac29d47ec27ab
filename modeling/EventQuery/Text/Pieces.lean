/-!
# EventQuery.Text.Pieces

Texts cut at marks. There is one piece more than there are marks, so an empty text is one empty
piece.
-/

namespace EventQuery
namespace Text

/-- The pieces of a text between the marks. -/
def pieces (isMark : Char → Bool) : List Char → List (List Char)
  | [] => [[]]
  | c :: rest =>
    if isMark c then [] :: pieces isMark rest
    else
      match pieces isMark rest with
      | [] => [[c]]
      | piece :: more => (c :: piece) :: more

end Text
end EventQuery
