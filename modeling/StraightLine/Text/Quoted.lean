import StraightLine.Text.GraphemeExtend
import StraightLine.Text.Unprintable

/-!
# Quoted characters

How a message shows a single character: between apostrophes, with an escape for everything that
would not be seen as itself. The apostrophe and the backslash take a backslash in front, four
controls have letters of their own, and what has no visible form or would join the opening
apostrophe is given by its code point in lower-case hexadecimal. A double quote needs no escape.

## Main definitions

* `quotedChar` — the character between apostrophes
-/

namespace StraightLine

/-- A code point as an escape, in hexadecimal without leading zeros. -/
def codePointEscape (c : Char) : String :=
  "\\u\x7b" ++ String.ofList (Nat.toDigits 16 c.toNat) ++ "\x7d"

/-- A character as it stands between apostrophes. -/
def escapedChar (c : Char) : String :=
  if c = '\x00' then "\\0"
  else if c = '\t' then "\\t"
  else if c = '\n' then "\\n"
  else if c = '\r' then "\\r"
  else if c = '\x27' then "\\'"
  else if c = '\x5c' then "\\\\"
  else if graphemeExtend.contains c || unprintable.contains c then codePointEscape c
  else String.singleton c

/-- A character between apostrophes. -/
def quotedChar (c : Char) : String :=
  "'" ++ escapedChar c ++ "'"

end StraightLine
