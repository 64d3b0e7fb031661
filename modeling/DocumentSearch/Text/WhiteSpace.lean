import DocumentSearch.Text.Basic
import DocumentSearch.Text.CharTable

/-!
# White space, words and lines

White space is the Unicode property White_Space: 25 characters, of which core's
`Char.isWhitespace` knows four.

Results:

* `isWhiteSpace_of_isWhitespace`: the table extends the property of core.
-/

namespace DocumentSearch.Text

/-- The code points of the property White_Space. -/
def whiteSpaceRanges : List (Nat × Nat) :=
  [(0x09, 0x0D), (0x20, 0x20), (0x85, 0x85), (0xA0, 0xA0), (0x1680, 0x1680), (0x2000, 0x200A),
    (0x2028, 0x2029), (0x202F, 0x202F), (0x205F, 0x205F), (0x3000, 0x3000)]

/-- Is the character white space? -/
def isWhiteSpace (c : Char) : Bool := inRanges whiteSpaceRanges c.toNat

theorem isWhiteSpace_of_isWhitespace {c : Char} (h : c.isWhitespace = true) :
    isWhiteSpace c = true := by
  simp [Char.isWhitespace] at h
  rcases h with ((h | h) | h) | h <;> subst h <;> decide

/-! ## Trimming -/

/-- The text without white space at its beginning. -/
def trimStart (t : Text) : Text := t.dropWhile isWhiteSpace

/-- The text without white space at its end. -/
def trimEnd : Text → Text
  | [] => []
  | c :: t =>
    match trimEnd t with
    | [] => if isWhiteSpace c then [] else [c]
    | d :: u => c :: d :: u

/-- The text without white space at its two ends. -/
def trim (t : Text) : Text := trimEnd (trimStart t)

/-! ## Words and lines -/

/-- The words of a text: the longest runs without white space. -/
def words : Text → List Text
  | [] => []
  | [c] => if isWhiteSpace c then [] else [[c]]
  | c :: d :: t =>
    if isWhiteSpace c then words (d :: t)
    else if isWhiteSpace d then [c] :: words (d :: t)
    else match words (d :: t) with
      | [] => [[c]]
      | w :: ws => (c :: w) :: ws

/-- The lines of a text. A line ends at a line feed, which may follow a carriage return; what stands
behind the last line end is a line of its own only if it is not empty. -/
def lines : Text → List Text
  | [] => []
  | '\n' :: t => [] :: lines t
  | '\r' :: '\n' :: t => [] :: lines t
  | c :: t =>
    match lines t with
    | [] => [[c]]
    | l :: ls => (c :: l) :: ls

end DocumentSearch.Text
