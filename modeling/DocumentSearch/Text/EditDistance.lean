import DocumentSearch.Text.Basic

/-!
# Edit distance

The function `edit_distance` of `search/scoring`: the least number of insertions, deletions and
substitutions of single characters that turn one text into another. The table of distances between
the ends of the two texts is filled row by row, a row for each end of the first text.
-/

namespace DocumentSearch.Text

/-- The distances of the empty text to every end of `b`, longest end first: their lengths. -/
def lengthRow : Text → List Nat
  | [] => [0]
  | _ :: b =>
    match lengthRow b with
    | n :: row => (n + 1) :: n :: row
    | [] => []

/-- The row of the text `c :: a`, from the row of `a`. Its entry for `d :: b` is the least of three:
drop `c`, insert `d`, or turn `c` into `d`, which is free if they are equal. -/
def editRow (c : Char) : Text → List Nat → List Nat
  | d :: b, drop :: keep :: row =>
    match editRow c b (keep :: row) with
    | insert :: later =>
      min (min (drop + 1) (insert + 1)) (keep + if c = d then 0 else 1) :: insert :: later
    | [] => []
  | [], drop :: _ => [drop + 1]
  | _, _ => []

/-- The distances of `a` to every end of `b`, longest end first. -/
def editRows (a b : Text) : List Nat := a.foldr (fun c row => editRow c b row) (lengthRow b)

/-- The least number of edits of single characters that turn `a` into `b`. -/
def editDistance (a b : Text) : Nat := (editRows a b).headD 0

end DocumentSearch.Text
