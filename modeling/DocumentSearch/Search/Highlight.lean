import DocumentSearch.Search.Config
import DocumentSearch.Search.PatternReader
import DocumentSearch.Text.CaseFold
import DocumentSearch.Text.Occurrence

/-!
# Highlights

The `Highlighter` of `search/highlight`. A fragment is a window of the text around a match, in which
every match is marked. Matches are found from left to right, without overlap and up to case; a
window keeps a number of characters on each side of its match, and an ellipsis stands where it cuts
the text off.
-/

namespace DocumentSearch

open Text

/-- Marked excerpts of a field. -/
structure Highlight where
  field : Field
  fragments : List Text
deriving DecidableEq, Repr

namespace HighlightStyle

/-- The text with every match of the term marked. -/
def mark (style : HighlightStyle) (term text : Text) : Text :=
  let found := cuts sameFolded term text
  (found.hits.flatMap fun h => h.gap ++ style.preTag ++ h.found ++ style.postTag) ++ found.rest

/-- The fragment around a match of `length` characters that begins at `start` (`render`). -/
def fragment (style : HighlightStyle) (term text : Text) (start length : Nat) : Text :=
  let before := min style.contextChars start
  let window := (text.drop (start - before)).take (before + length + style.contextChars)
  let cutBefore := before < start
  let cutBehind := start + length + style.contextChars < text.length
  (if cutBefore then style.ellipsis else []) ++ style.mark term window ++
    if cutBehind then style.ellipsis else []

/-- The fragments of a text around the first matches of a term (`fragments`), which has none if it
is refused. -/
def fragments [PatternReader] (style : HighlightStyle) (text term : Text) : List Text :=
  if PatternReader.readsTerm term then
    let starts := positionsFrom 0 (cuts sameFolded term text).hits
    (starts.take style.maxFragments).map fun start => style.fragment term text start term.length
  else []

/-- The highlight of a field, if there is anything to show (`highlight`). -/
def highlight? [PatternReader] (style : HighlightStyle) (field : Field) (text term : Text) :
    Option Highlight :=
  match style.fragments text term with
  | [] => none
  | fragments => some ⟨field, fragments⟩

end HighlightStyle

end DocumentSearch
