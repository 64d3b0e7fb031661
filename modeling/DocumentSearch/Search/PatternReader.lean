import DocumentSearch.Text.Wildcard

/-!
# Pattern readers

Patterns and the terms that are highlighted are read before anything is matched against them
(`compile_wildcard` of `search/evaluate`, `term_regex` of `search/highlight`). The library that
reads them refuses what grows too large for it, such as a pattern of millions of characters. A
pattern that was refused matches no text, and a term that was refused is not highlighted. Where the
limit lies is not said here: what is proved of searches holds for every reader.
-/

namespace DocumentSearch

open Text

/-- What is read of patterns and of terms. -/
class PatternReader where
  /-- The pattern, if it is not refused. -/
  read? : Text → Option Wildcard
  /-- Is the term read? -/
  readsTerm : Text → Bool

/-- The reader that refuses nothing. -/
@[reducible] def PatternReader.standard : PatternReader where
  read? pattern := some (.compile pattern)
  readsTerm _ := true

end DocumentSearch
