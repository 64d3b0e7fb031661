import DocumentSearch.Document.Field
import DocumentSearch.Text.LowerCase
import DocumentSearch.Text.WhiteSpace

/-!
# Salvaging words

The function `salvage_terms` of `search/rank`. It leaves of a text that is no query its words, in
lower case and each of them once, without keywords, quotes, parentheses, wildcard characters, names
of fields and distances.
-/

namespace DocumentSearch

open Text

/-- Is the word an operator of the query language? -/
def isKeyword (word : Text) : Bool :=
  word == ['A', 'N', 'D'] || word == ['O', 'R'] || word == ['N', 'O', 'T']

/-- Does the character only serve the syntax of queries? -/
def isSyntaxChar (c : Char) : Bool := c == '"' || c == '(' || c == ')' || c == '*' || c == '?'

/-- The word without the name of a field in front of it. -/
def dropScope (word : Text) : Text :=
  match splitOnce ':' word with
  | some (name, value) => if (Field.ofScope? name).isSome then value else word
  | none => word

/-- The word without the distance behind it. -/
def dropDistance (word : Text) : Text :=
  match splitLast '~' word with
  | some (term, digits) => if digits.all Char.isDigit then term else word
  | none => word

/-- What a word of the text is searched for as. -/
def salvageWord (word : Text) : Text :=
  lower (dropDistance (dropScope (word.filter (!isSyntaxChar ·))))

/-- The list without repetitions: the first of equal elements stays. -/
def firstOccurrences (ts : List Text) : List Text :=
  ts.foldl (fun kept t => if kept.contains t then kept else kept ++ [t]) []

/-- The words to search for in a text that is no query (`salvage_terms`). -/
def salvageTerms (t : Text) : List Text :=
  firstOccurrences ((((words t).filter (!isKeyword ·)).map salvageWord).filter (!·.isEmpty))

end DocumentSearch
