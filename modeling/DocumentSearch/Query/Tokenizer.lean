import DocumentSearch.Query.Error
import DocumentSearch.Text.Alphanumeric
import DocumentSearch.Text.WhiteSpace
import DocumentSearch.Text.Wildcard

/-!
# From text to tokens

The function `tokenize` of `search/tokenize`. White space separates tokens. A quote opens a phrase
that reaches to the next quote; parentheses stand for themselves; every other character belongs to a
run, which ends at white space, a parenthesis or a quote. A run is a keyword, a value scoped to a
field, a fuzzy term, a wildcard or a word, in this order. A run of the form `name:` right before a
quote scopes the phrase to the field.
-/

namespace DocumentSearch

open Text

/-! ## Runs -/

/-- Can the text name a field (`is_identifier`)? Names are made of letters, numbers and
underscores. -/
def isIdentifier (name : Text) : Bool :=
  !name.isEmpty && name.all fun c => isAlphanumeric c || c == '_'

/-- The greatest distance that a fuzzy term can have. -/
def maxDistance : Nat := 0xFFFFFFFFFFFFFFFF

/-- The distance of a fuzzy term that gives none. -/
def defaultDistance : Nat := 1

/-- A run `name:value`, cut at its first colon. -/
def scopedValue? (run : Text) : Option (Text × Text) :=
  match splitOnce ':' run with
  | some (name, value) => if isIdentifier name && !value.isEmpty then some (name, value) else none
  | none => none

/-- A run `term~` or `term~distance`, cut at its first tilde. -/
def fuzzyTerm? (run : Text) : Option (Text × Nat) :=
  match splitOnce '~' run with
  | none => none
  | some (term, digits) =>
    if term.isEmpty then none
    else if digits.isEmpty then some (term, defaultDistance)
    else match Decimal.readNat? digits with
      | some distance => if distance ≤ maxDistance then some (term, distance) else none
      | none => none

/-- The token that a run stands for (`classify`). -/
def classify (run : Text) : Token :=
  if run = Token.and.text then .and
  else if run = Token.or.text then .or
  else if run = Token.not.text then .not
  else match scopedValue? run with
    | some (name, value) => .field name (if isWildcard value then .wildcard value else .word value)
    | none =>
      match fuzzyTerm? run with
      | some (term, distance) => .fuzzy term distance
      | none => if isWildcard run then .wildcard run else .word run

/-- The name in a run of the form `name:`. -/
def scopeOfRun? (run : Text) : Option Text :=
  match beforeSuffix? [':'] run with
  | some name => if isIdentifier name then some name else none
  | none => none

/-! ## Tokens -/

/-- Does the character end a run? -/
def endsRun (c : Char) : Bool := isWhiteSpace c || c == '(' || c == ')' || c == '"'

/-- The part of the text that belongs to the run it begins in. -/
def runOf (t : Text) : Text := t.takeWhile (!endsRun ·)

/-- The part of the text behind the run it begins in. -/
def afterRun (t : Text) : Text := t.dropWhile (!endsRun ·)

theorem runOf_append_afterRun (t : Text) : runOf t ++ afterRun t = t :=
  List.takeWhile_append_dropWhile

theorem length_afterRun_le (t : Text) : (afterRun t).length ≤ t.length :=
  (List.dropWhile_sublist _).length_le

/-- The name of the field in the run and the text behind the quote, if the run scopes the phrase
that a quote right behind it opens. -/
def scopedPhrase? (run rest : Text) : Option (Text × Text) :=
  match rest with
  | '"' :: inner => (scopeOfRun? run).map fun name => (name, inner)
  | _ => none

theorem length_lt_of_scopedPhrase? {run rest name inner : Text}
    (h : scopedPhrase? run rest = some (name, inner)) : inner.length < rest.length := by
  unfold scopedPhrase? at h
  split at h
  · simp only [Option.map_eq_some_iff, Prod.mk.injEq] at h
    obtain ⟨_, -, -, rfl⟩ := h
    simp
  · simp at h

/-- The tokens of a text that stands at the byte offset `position`. -/
def tokenizeAt (position : Nat) : Text → Except QueryError (List Token)
  | [] => .ok []
  | c :: t =>
    if isWhiteSpace c then tokenizeAt (position + c.utf8Size) t
    else if c = '(' then (Token.openParen :: ·) <$> tokenizeAt (position + 1) t
    else if c = ')' then (Token.closeParen :: ·) <$> tokenizeAt (position + 1) t
    else if c = '"' then
      match _h : splitOnce '"' t with
      | none => .error (.unterminatedPhrase position)
      | some (phrase, rest) =>
        (Token.phrase phrase :: ·) <$> tokenizeAt (position + utf8Length phrase + 2) rest
    else
      let position := position + utf8Length (c :: runOf t)
      match _h : scopedPhrase? (c :: runOf t) (afterRun t) with
      | none => (classify (c :: runOf t) :: ·) <$> tokenizeAt position (afterRun t)
      | some (name, inner) =>
        match _h' : splitOnce '"' inner with
        | none => .error (.unterminatedPhrase position)
        | some (phrase, rest) =>
          (Token.field name (.phrase phrase) :: ·) <$>
            tokenizeAt (position + utf8Length phrase + 2) rest
termination_by t => t.length
decreasing_by
  all_goals simp only [List.length_cons]
  all_goals have := length_afterRun_le t
  · omega
  · omega
  · omega
  · have := length_lt_of_splitOnce _h; omega
  · omega
  · have := length_lt_of_scopedPhrase? _h
    have := length_lt_of_splitOnce _h'
    omega

/-- The tokens of a text (`tokenize`). -/
def tokenize (t : Text) : Except QueryError (List Token) := tokenizeAt 0 t

end DocumentSearch
