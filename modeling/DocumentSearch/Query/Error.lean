import DocumentSearch.Query.Token

/-!
# Errors of a query

Why a text is no query (`QuerySyntaxError` of `error`). Positions of phrases are byte offsets in the
text; all other positions count tokens.
-/

namespace DocumentSearch

/-- Why a text, or a list of tokens, is no query. -/
inductive QueryError where
  /-- The phrase that a quote opens is never closed. -/
  | unterminatedPhrase (position : Nat)
  /-- The group that a parenthesis opens is never closed. -/
  | unmatchedParen (position : Nat)
  /-- A term is missing at the end. -/
  | unexpectedEnd
  /-- The token cannot stand where it stands. -/
  | unexpectedToken (found : Token) (position : Nat)
  /-- The query is nested deeper than the limit. -/
  | tooDeep (position : Nat)
deriving DecidableEq, Repr

/-- The error in words. -/
def QueryError.message : QueryError → String
  | .unterminatedPhrase position => s!"unterminated phrase starting at byte {position}"
  | .unmatchedParen position =>
    s!"missing closing parenthesis for group opened at token {position}"
  | .unexpectedEnd => "unexpected end of query"
  | .unexpectedToken found position =>
    let text := String.ofList found.text
    s!"unexpected token '{text}' at position {position}"
  | .tooDeep position => s!"query nests too deeply at token {position}"

end DocumentSearch
