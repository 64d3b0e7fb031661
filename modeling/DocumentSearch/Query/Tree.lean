import DocumentSearch.Decimal.Digits

/-!
# Queries

A query (`Query` of `search/query`) is a tree whose leaves ask for words and whose nodes combine the
answers. Parsing gives negations one operand and conjunctions and disjunctions two; a tree that is
built by hand may give an operator the other number of operands, and then a lone operand stands for
the whole node while a negation looks at its first operand only.
-/

namespace DocumentSearch

/-- How a node combines the answers of its operands. -/
inductive Operator where
  | and
  | or
  | not
deriving DecidableEq, Repr

/-- The keyword of an operator. -/
def Operator.text : Operator → Text
  | .and => ['A', 'N', 'D']
  | .or => ['O', 'R']
  | .not => ['N', 'O', 'T']

/-- A query. -/
inductive Query where
  /-- A word that occurs in some field. -/
  | term (value : Text)
  /-- Words in this order. -/
  | phrase (text : Text)
  /-- A pattern with `*` and `?`. -/
  | wildcard (pattern : Text)
  /-- A word up to a number of edits. -/
  | fuzzy (term : Text) (distance : Nat)
  /-- A leaf that looks at one field only. -/
  | field (name : Text) (inner : Query)
  /-- A query in parentheses. -/
  | group (inner : Query)
  /-- An operator with one operand. -/
  | unary (op : Operator) (operand : Query)
  /-- An operator with two operands. -/
  | binary (op : Operator) (left right : Query)
deriving DecidableEq, Repr

namespace Query

/-- Both queries. -/
abbrev and (left right : Query) : Query := .binary .and left right

/-- One of the queries. -/
abbrev or (left right : Query) : Query := .binary .or left right

/-- Not the query. -/
abbrev not (operand : Query) : Query := .unary .not operand

/-- The height of the tree: 0 for a leaf, and one more for every node above it. -/
def height : Query → Nat
  | .term _ | .phrase _ | .wildcard _ | .fuzzy _ _ => 0
  | .field _ inner | .group inner | .unary _ inner => inner.height + 1
  | .binary _ left right => max left.height right.height + 1

/-- The query as text, as `Query` is displayed: every operator with its operands stands in
parentheses, groups leave no trace. -/
def text : Query → Text
  | .term value => value
  | .phrase words => '"' :: words ++ ['"']
  | .wildcard pattern => pattern
  | .fuzzy word distance => word ++ '~' :: Decimal.natText distance
  | .field name inner => name ++ ':' :: inner.text
  | .group inner => inner.text
  | .unary .not operand | .binary .not operand _ =>
    ['(', 'N', 'O', 'T', ' '] ++ operand.text ++ [')']
  | .unary _ operand => operand.text
  | .binary op left right => '(' :: left.text ++ ' ' :: op.text ++ ' ' :: right.text ++ [')']

end Query

end DocumentSearch
