import DocumentSearch.Decimal.Digits

/-!
# Tokens of a query

The words of the query language (`Token` of `search/tokenize`): parentheses, the three operators,
and the leaves of a query.
-/

namespace DocumentSearch

/-- What a field is searched for. -/
inductive FieldValue where
  | word (value : Text)
  | wildcard (pattern : Text)
  | phrase (text : Text)
deriving DecidableEq, Repr

/-- A token of a query. -/
inductive Token where
  | openParen
  | closeParen
  | and
  | or
  | not
  /-- A quoted phrase. -/
  | phrase (text : Text)
  /-- A value that is searched for in one field. -/
  | field (name : Text) (value : FieldValue)
  /-- A word up to a number of edits. -/
  | fuzzy (term : Text) (distance : Nat)
  /-- A word that holds `*` or `?`. -/
  | wildcard (pattern : Text)
  | word (value : Text)
deriving DecidableEq, Repr

/-- The value as it is written in a query. -/
def FieldValue.text : FieldValue → Text
  | .word value => value
  | .wildcard pattern => pattern
  | .phrase text => '"' :: text ++ ['"']

/-- The token as it is written in a query. -/
def Token.text : Token → Text
  | .openParen => ['(']
  | .closeParen => [')']
  | .and => ['A', 'N', 'D']
  | .or => ['O', 'R']
  | .not => ['N', 'O', 'T']
  | .phrase text => '"' :: text ++ ['"']
  | .field name value => name ++ ':' :: value.text
  | .fuzzy term distance => term ++ '~' :: Decimal.natText distance
  | .wildcard pattern => pattern
  | .word value => value

end DocumentSearch
