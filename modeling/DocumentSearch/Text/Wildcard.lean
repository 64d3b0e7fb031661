import DocumentSearch.Text.CaseFold

/-!
# Wildcard patterns

The patterns that `wildcard_regex` of `search/scoring` compiles. In a pattern `*` stands for any run
of characters without a line feed, `?` for one such character, and every other character for itself
up to case. A pattern matches a text if some piece of the text is what it stands for.

A match is found in one pass over the pattern. A mark on a place between two characters says that
the part of the pattern read so far can end there; each piece of the pattern moves the marks.
-/

namespace DocumentSearch.Text

/-- What one character of a pattern stands for. -/
inductive Piece where
  /-- Any run of characters other than line feeds. -/
  | run
  /-- One character other than a line feed. -/
  | one
  /-- One character that folds to the given one. -/
  | folded (c : Char)
deriving DecidableEq, Repr

/-- A pattern ready to be matched. -/
structure Wildcard where
  pieces : List Piece
deriving DecidableEq, Repr

/-- The meaning of a character in a pattern. -/
def Piece.ofChar : Char → Piece
  | '*' => .run
  | '?' => .one
  | c => .folded (foldChar c)

/-- Reads a pattern. -/
def Wildcard.compile (pattern : Text) : Wildcard := ⟨pattern.map Piece.ofChar⟩

/-- Does the text hold a character that makes it a pattern? -/
def isWildcard (t : Text) : Bool := t.any fun c => c == '*' || c == '?'

/-- Moves every mark over one character that passes the test. The first mark of the result is
`arrived`. -/
def advance (passes : Char → Bool) (arrived : Bool) : Text → List Bool → List Bool
  | c :: t, mark :: marks => arrived :: advance passes (mark && passes c) t marks
  | _, _ => [arrived]

/-- Spreads every mark over the characters behind it, up to a line feed. -/
def spread (arrived : Bool) : Text → List Bool → List Bool
  | c :: t, mark :: marks =>
    (mark || arrived) :: spread ((mark || arrived) && c != '\n') t marks
  | [], mark :: _ => [mark || arrived]
  | _, [] => []

/-- The marks after one more piece of the pattern, on a folded text. -/
def Piece.move (t : Text) (marks : List Bool) : Piece → List Bool
  | .run => spread false t marks
  | .one => advance (· != '\n') false t marks
  | .folded c => advance (· == c) false t marks

/-- Does the pattern match some piece of the text? -/
def Wildcard.isMatch (w : Wildcard) (t : Text) : Bool :=
  let folded := t.map foldChar
  (w.pieces.foldl (Piece.move folded) (List.replicate (t.length + 1) true)).any id

end DocumentSearch.Text
