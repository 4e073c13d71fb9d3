/-!
# The follow marker

A turn that follows the last recommendation ends with a marker, on its own line
or not. The expression of a turn is the first run of characters without a hash
sign and without a line feed; what stands after it decides whether it is followed.
-/
namespace TaskDialogue

def endsExpression (c : Char) : Bool := c == '#' || c == '\n'

/-- The expression of a turn text, and whether the marker follows it, after one
line feed at most. A text without an expression has none; an empty marker marks
nothing. -/
def splitFollowMarker? (marker text : List Char) : Option (List Char × Bool) :=
  let rest := text.dropWhile endsExpression
  let tail := rest.dropWhile (! endsExpression ·)
  let tail := if tail.head? = some '\n' then tail.tail else tail
  if rest.isEmpty then none
  else some (rest.takeWhile (! endsExpression ·), !marker.isEmpty && marker.isPrefixOf tail)

end TaskDialogue
