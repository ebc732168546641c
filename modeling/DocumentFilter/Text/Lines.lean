/-!
# Lines

Lines end at a line feed, a carriage return or both in this order.

* `DocumentFilter.Text.lineFeeds`: a text in which every line ends at a line feed;
* `DocumentFilter.Text.lines`: the lines of a text.
-/

namespace DocumentFilter.Text

/-- A text in which every line ends at a line feed. -/
def lineFeeds : List Char → List Char
  | [] => []
  | '\r' :: '\n' :: rest => '\n' :: lineFeeds rest
  | '\r' :: rest => '\n' :: lineFeeds rest
  | c :: rest => c :: lineFeeds rest

/-- The lines of a text whose lines end at line feeds, and what comes after the last line
feed. -/
def splitLines : List Char → List (List Char) × List Char
  | [] => ([], [])
  | c :: rest =>
    let (lines, last) := splitLines rest
    if c = '\n' then ([] :: lines, last)
    else
      match lines with
      | [] => ([], c :: last)
      | line :: lines => ((c :: line) :: lines, last)

/-- **The lines of a text**; the last one may lack its end. -/
def lines (cs : List Char) : List (List Char) :=
  let (lines, last) := splitLines (lineFeeds cs)
  if last = [] then lines else lines ++ [last]

/-- The lines of the start of a text that are complete, whatever comes after it: a carriage
return at its end may still become part of a longer end. -/
def completeLines (cs : List Char) : List (List Char) :=
  let cs := if cs.getLast? = some '\r' then cs.dropLast else cs
  (splitLines (lineFeeds cs)).1

end DocumentFilter.Text
