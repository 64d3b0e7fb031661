import DocumentSearch.Document.Basic
import DocumentSearch.Query.Tree
import DocumentSearch.Search.Highlight
import DocumentSearch.Search.Score
import DocumentSearch.Text.EditDistance

/-!
# Evaluation

A query is evaluated against one document by the `Evaluator` of `search/evaluate` (`SPEC_FULL.md`,
4.3): does it match, how well, and where. A term scores every occurrence in every field by the
weight of the field, a phrase every field it occurs in; a wildcard and a fuzzy term score the first
field that they match. The operators combine the outcomes.
-/

namespace DocumentSearch

open Text

/-- The outcome of a query on a document. -/
structure Evaluation (α : Type) where
  isMatch : Bool
  score : α
  highlights : List Highlight

namespace Evaluation

variable {α : Type} [Score α]

/-- The query does not match. -/
def miss : Evaluation α := ⟨false, 0.0, []⟩

/-- The query matches. -/
def hit (score : α) (highlights : List Highlight) : Evaluation α := ⟨true, score, highlights⟩

/-- The query matches iff its score is positive. -/
def scored (score : α) (highlights : List Highlight) : Evaluation α :=
  ⟨Score.isPositive score, score, highlights⟩

end Evaluation

/-! ## Patterns -/

/-- Patterns that were read ahead of the evaluation, with nothing for those that were refused. -/
abbrev Compiled := List (Text × Option Wildcard)

/-- The patterns in a query, from left to right (`collect_wildcards`). -/
def Query.patterns : Query → List Text
  | .wildcard pattern => [pattern]
  | .field _ inner | .group inner | .unary _ inner => inner.patterns
  | .binary _ left right => left.patterns ++ right.patterns
  | .term _ | .phrase _ | .fuzzy _ _ => []

namespace Compiled

variable [PatternReader]

/-- Reads one more pattern ahead, unless it was read before. -/
def add (compiled : Compiled) (pattern : Text) : Compiled :=
  if (compiled.lookup pattern).isSome then compiled
  else compiled ++ [(pattern, PatternReader.read? pattern)]

/-- Reads the patterns of a query ahead, each of them once. -/
def ofQuery (q : Query) : Compiled := q.patterns.foldl add []

/-- The pattern, read ahead or now (`pattern`). -/
def pattern? (compiled : Compiled) (pattern : Text) : Option Wildcard :=
  match compiled.lookup pattern with
  | some reading => reading
  | none => PatternReader.read? pattern

/-- Does the pattern match the text? One that was refused matches no text. -/
def isMatch (compiled : Compiled) (pattern text : Text) : Bool :=
  match compiled.pattern? pattern with
  | some w => w.isMatch text
  | none => false

end Compiled

/-! ## Evaluators -/

/-- What a query is evaluated with. -/
structure Evaluator (α : Type) where
  config : Config α
  compiled : Compiled := []

namespace Evaluator

variable {α : Type} [Score α] (e : Evaluator α)

/-- The evaluator with every pattern of the query read ahead (`for_query`). -/
def forQuery [PatternReader] (config : Config α) (q : Query) : Evaluator α :=
  ⟨config, Compiled.ofQuery q⟩

/-- The highlight of a field. Tags are not highlighted. -/
def highlight? [PatternReader] (field : Field) (text needle : Text) : Option Highlight :=
  if field = .tags then none else e.config.highlight.highlight? field text needle

/-- A term in every field: each occurrence counts the weight of its field. -/
def term [PatternReader] (value : Text) (d : Document) : Evaluation α :=
  let needle := lower value
  let add := fun (score, highlights) field =>
    let text := d.fieldText field
    let count := occurrences needle text
    if count = 0 then (score, highlights)
    else (score + Score.ofCount count * e.config.weights.of field,
      highlights ++ (e.highlight? field text needle).toList)
  let (score, highlights) := Field.all.foldl add (0.0, [])
  Evaluation.scored score highlights

/-- A phrase in the fields that hold sentences: each field it occurs in counts one and a half times
its weight. -/
def phrase [PatternReader] (value : Text) (d : Document) : Evaluation α :=
  let needle := lower value
  if needle.isEmpty then Evaluation.miss
  else
    let add := fun (score, highlights) field =>
      let text := d.fieldText field
      if occursIn needle text then
        (score + e.config.weights.of field * 1.5,
          highlights ++ (e.highlight? field text needle).toList)
      else (score, highlights)
    let (score, highlights) := Field.forPhrases.foldl add (0.0, [])
    Evaluation.scored score highlights

/-- A wildcard: the first field that it matches counts four fifths of its weight. -/
def wildcard [PatternReader] (pattern : Text) (d : Document) : Evaluation α :=
  match Field.all.find? fun field => e.compiled.isMatch pattern (d.fieldText field) with
  | some field => Evaluation.hit (e.config.weights.of field * 0.8) []
  | none => Evaluation.miss

/-- A fuzzy term: the first field with a word that is near enough counts seven tenths of its
weight. -/
def fuzzy (term : Text) (distance : Nat) (d : Document) : Evaluation α :=
  let needle := lower term
  let near := fun field => (words (d.fieldText field)).any fun w => editDistance needle w ≤ distance
  match Field.forFuzzyTerms.find? near with
  | some field => Evaluation.hit (e.config.weights.of field * 0.7) []
  | none => Evaluation.miss

/-- A leaf in one field only (`field`). A term counts twice there. -/
def inField [PatternReader] (field : Field) (leaf : Query) (d : Document) : Evaluation α :=
  let text := d.fieldText field
  let weight := e.config.weights.of field
  match leaf with
  | .term value =>
    let needle := lower value
    let count := occurrences needle text
    if count = 0 then Evaluation.miss
    else Evaluation.hit (Score.ofCount count * weight * 2.0) (e.highlight? field text needle).toList
  | .phrase value =>
    let needle := lower value
    if needle.isEmpty || !occursIn needle text then Evaluation.miss
    else Evaluation.hit (weight * 1.5) (e.highlight? field text needle).toList
  | .wildcard pattern =>
    if e.compiled.isMatch pattern text then Evaluation.hit weight [] else Evaluation.miss
  | _ => Evaluation.miss

/-- Both outcomes together: the scores are added. -/
def both (left right : Evaluation α) : Evaluation α :=
  let isMatch := left.isMatch && right.isMatch
  ⟨isMatch, if isMatch then left.score + right.score else 0.0, left.highlights ++ right.highlights⟩

/-- One of the outcomes: the greater score counts, and the highlights of the first match are
shown. -/
def either (left right : Evaluation α) : Evaluation α :=
  ⟨left.isMatch || right.isMatch, Score.greater left.score right.score,
    if left.isMatch then left.highlights else right.highlights⟩

/-- The opposite outcome: a document that does not match counts one. -/
def opposite (outcome : Evaluation α) : Evaluation α :=
  ⟨!outcome.isMatch, if outcome.isMatch then 0.0 else 1.0, []⟩

/-- The outcome of a query on a document. -/
def evaluate [PatternReader] (q : Query) (d : Document) : Evaluation α :=
  match q with
  | .term value => e.term value d
  | .phrase value => e.phrase value d
  | .wildcard pattern => e.wildcard pattern d
  | .fuzzy word distance => e.fuzzy word distance d
  | .field name inner =>
    match Field.ofScope? name with
    | some field => e.inField field inner d
    | none => Evaluation.miss
  | .group inner => evaluate inner d
  | .unary .not operand | .binary .not operand _ => opposite (evaluate operand d)
  | .unary _ operand => evaluate operand d
  | .binary .and left right => both (evaluate left d) (evaluate right d)
  | .binary .or left right => either (evaluate left d) (evaluate right d)

end Evaluator

end DocumentSearch
