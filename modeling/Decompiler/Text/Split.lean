/- # Decompiler.Text.Split — lines, words and fields

Text is cut into lines at line feeds, a line into words at blanks, and a word into
fields at a separator. Lines keep their blanks, words are never empty, and fields may
be.
-/
import Decompiler.Text.Blank

namespace Decompiler.Text

set_option autoImplicit false

/-- A line without the carriage return at its end, if it has one. -/
def dropCarriageReturn (line : List Char) : List Char :=
  if line.getLast? = some '\r' then line.dropLast else line

/-- The lines of a text. A line feed ends a line and takes a carriage return right before it
along; what follows the last line feed is a line unless it is empty, and is kept as it is. -/
def lines (text : List Char) : List (List Char) :=
  let pieces := text.splitOn '\n'
  let last := pieces.getLast?.getD []
  pieces.dropLast.map dropCarriageReturn ++ (if last = [] then [] else [last])

/-- The longest stretches of characters that are not blank. -/
def words (line : List Char) : List (List Char) :=
  (line.splitOnP isBlank).filter (· ≠ [])

/-- The stretches between the occurrences of `separator`; one more than there are of those. -/
def fields (separator : Char) (word : List Char) : List (List Char) :=
  word.splitOn separator

end Decompiler.Text
