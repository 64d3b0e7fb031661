import DocumentSearch.Query.Tokenizer
import DocumentSearch.Query.Tree

/-!
# From tokens to a query

The `Parser` of `search/query`, in the reading of `SPEC_FULL.md`, 10.6. A term is a leaf, an
expression in parentheses, or `NOT` and a term. An expression is a term and any number of tails,
which are read from left to right without precedence: an operator `AND` or `OR` and a term, a term
alone, which means `AND`, `NOT` and a term, which means `AND NOT`, or a `NOT` with nothing to negate
behind it, which negates everything before it.

Every reader returns the tokens that it leaves, together with the proof that they are fewer.
-/

namespace DocumentSearch

/-- How high a tree can be, and how many groups and negations can be open at once
(`MAX_QUERY_DEPTH`). -/
def maxDepth : Nat := 128

/-- A query that was read, its height, and the tokens behind it, which are fewer than `bound`. -/
structure Reading (bound : Nat) where
  query : Query
  height : Nat
  rest : List Token
  fewer : rest.length < bound

/-- The height of a node whose highest operand has the given height, within the limit (`grow`). -/
def deepen (height position : Nat) : Except QueryError Nat :=
  if height < maxDepth then .ok (height + 1) else .error (.tooDeep position)

/-- Can a term begin with the first of the tokens (`starts_term`)? -/
def startsTerm : List Token → Bool
  | [] | .closeParen :: _ | .and :: _ | .or :: _ => false
  | _ => true

/-- The leaf that a value scoped to a field stands for. -/
def FieldValue.query : FieldValue → Query
  | .word value => .term value
  | .wildcard pattern => .wildcard pattern
  | .phrase text => .phrase text

/-- The group around an expression, if a closing parenthesis stands behind it. -/
def closeGroup {bound : Nat} (position : Nat) (inner : Reading bound) :
    Except QueryError (Reading (bound + 1)) :=
  match inner with
  | ⟨query, height, .closeParen :: rest, fewer⟩ => do
    let height ← deepen height position
    return ⟨.group query, height, rest, by simp only [List.length_cons] at fewer; omega⟩
  | _ => throw (.unmatchedParen position)

/-- The negation of a term. -/
def negate {bound : Nat} (position : Nat) (inner : Reading bound) :
    Except QueryError (Reading (bound + 1)) := do
  let height ← deepen inner.height position
  return ⟨inner.query.not, height, inner.rest, Nat.lt_succ_of_lt inner.fewer⟩

mutual

/-- Reads a term (`parse_term`). `size` is the number of all tokens of the query, so that the first
of `tokens` has the position `size - tokens.length`; `nesting` groups and negations are open. -/
def readTerm (size nesting : Nat) (tokens : List Token) :
    Except QueryError (Reading tokens.length) :=
  let position := size - tokens.length
  match tokens with
  | [] => .error .unexpectedEnd
  | .openParen :: rest => do
    if nesting ≥ maxDepth then throw (.tooDeep position)
    let inner ← readExpression size (nesting + 1) rest
    closeGroup position inner
  | .not :: rest => do
    if nesting ≥ maxDepth then throw (.tooDeep position)
    let inner ← readTerm size (nesting + 1) rest
    negate position inner
  | .phrase text :: rest => .ok ⟨.phrase text, 0, rest, Nat.lt_succ_self _⟩
  | .field name value :: rest => .ok ⟨.field name value.query, 1, rest, Nat.lt_succ_self _⟩
  | .fuzzy term distance :: rest => .ok ⟨.fuzzy term distance, 0, rest, Nat.lt_succ_self _⟩
  | .wildcard pattern :: rest => .ok ⟨.wildcard pattern, 0, rest, Nat.lt_succ_self _⟩
  | .word value :: rest => .ok ⟨.term value, 0, rest, Nat.lt_succ_self _⟩
  | token :: _ => .error (.unexpectedToken token position)
termination_by (tokens.length, 0)

/-- Reads a term and the tails behind it (`parse_expression`). -/
def readExpression (size nesting : Nat) (tokens : List Token) :
    Except QueryError (Reading tokens.length) := do
  let first ← readTerm size nesting tokens
  let all ← readTails size nesting first.query first.height first.rest
  return ⟨all.query, all.height, all.rest, by have := first.fewer; have := all.fewer; omega⟩
termination_by (tokens.length, 1)
decreasing_by
  · exact Prod.Lex.right _ (by omega)
  · exact Prod.Lex.left _ _ first.fewer

/-- Reads the tails behind `left`, up to a closing parenthesis or the end: the loop of
`parse_expression`. -/
def readTails (size nesting : Nat) (left : Query) (height : Nat) (tokens : List Token) :
    Except QueryError (Reading (tokens.length + 1)) :=
  let position := size - tokens.length
  match tokens with
  | [] => .ok ⟨left, height, [], by simp⟩
  | .closeParen :: rest => .ok ⟨left, height, .closeParen :: rest, by simp⟩
  | .and :: rest => do
    let right ← readTerm size nesting rest
    let height ← deepen (max height right.height) position
    let all ← readTails size nesting (left.and right.query) height right.rest
    return ⟨all.query, all.height, all.rest, by
      have := right.fewer; have := all.fewer; simp only [List.length_cons]; omega⟩
  | .or :: rest => do
    let right ← readTerm size nesting rest
    let height ← deepen (max height right.height) position
    let all ← readTails size nesting (left.or right.query) height right.rest
    return ⟨all.query, all.height, all.rest, by
      have := right.fewer; have := all.fewer; simp only [List.length_cons]; omega⟩
  | .not :: rest =>
    if startsTerm rest then do
      let right ← readTerm size nesting rest
      let negated ← deepen right.height position
      let height ← deepen (max height negated) position
      let all ← readTails size nesting (left.and right.query.not) height right.rest
      return ⟨all.query, all.height, all.rest, by
        have := right.fewer; have := all.fewer; simp only [List.length_cons]; omega⟩
    else do
      let height ← deepen height position
      let all ← readTails size nesting left.not height rest
      return ⟨all.query, all.height, all.rest, by
        have := all.fewer; simp only [List.length_cons]; omega⟩
  | token :: rest => do
    let right ← readTerm size nesting (token :: rest)
    let height ← deepen (max height right.height) position
    let all ← readTails size nesting (left.and right.query) height right.rest
    return ⟨all.query, all.height, all.rest, by
      have := right.fewer; have := all.fewer; simp only [List.length_cons] at *; omega⟩
termination_by (tokens.length, 1)
decreasing_by
  all_goals first
    | exact Prod.Lex.right _ (by omega)
    | (apply Prod.Lex.left
       first | have := right.fewer | skip
       simp only [List.length_cons] at *
       omega)

end

namespace Query

/-- The query that the tokens spell. -/
def ofTokens (tokens : List Token) : Except QueryError Query := do
  let all ← readExpression tokens.length 0 tokens
  match all.rest with
  | [] => return all.query
  | token :: rest => throw (.unexpectedToken token (tokens.length - (rest.length + 1)))

/-- The query that a text spells (`parse`). -/
def ofText (t : Text) : Except QueryError Query := do
  ofTokens (← tokenize t)

end Query

end DocumentSearch
