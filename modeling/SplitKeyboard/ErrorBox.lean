import SplitKeyboard.Text.Lines

/-!
Errors drawn in a box, as a build shows them. Lengths are counted in bytes where a line may have to
be cut, and in characters where it is filled up.
-/
namespace SplitKeyboard.ErrorBox

def rule (left right : Char) : List Char := left :: List.replicate 66 '═' ++ [right]

def boxed (lead : String) (width : Nat) (cs : List Char) : List Char :=
  lead.toList ++ Text.padEnd width cs ++ [' ', '║']

/-- The longest line, in bytes, that is shown whole. -/
def lineLimit : Nat := 64

/-- A line cut to fit: of a longer one all but room for three dots is kept. A cut that falls inside
a character is refused. -/
def shorten (line : List Char) : Option (List Char) :=
  if lineLimit < Text.byteLength line then
    (Text.takeBytes? (lineLimit - 3) line).map (· ++ ['.', '.', '.'])
  else some line

/-- Each line of a message as a box line; none if some line cannot be cut. -/
def messageLines? (message : List Char) : Option (List Char) :=
  ((Text.lines message).mapM fun line => (shorten line).map (boxed "║  " lineLimit)).map
    Text.unlines

/-- The box for a list of errors under a title; without errors there is nothing to draw. -/
def report? (title : List Char) (errors : List (List Char)) : Option (List Char) :=
  if errors = [] then none
  else
    some ('\n' :: Text.unlines
      ([rule '╔' '╗', boxed "║  ERROR: " 56 title, rule '╠' '╣'] ++
        errors.map (boxed "║  • " 62) ++ [rule '╚' '╝', []]))

end SplitKeyboard.ErrorBox
