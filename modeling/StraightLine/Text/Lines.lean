/-!
# Texts of lines

A list of items as a text with one item per line, the last line ended like every other.
-/

namespace StraightLine

/-- One item per line. -/
def unlines (items : List String) : String :=
  String.join (items.map (· ++ "\n"))

end StraightLine
