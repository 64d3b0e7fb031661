import DocumentSearch.Data.Value
import DocumentSearch.Document.Field

/-!
# Configuration

How the search is tuned (`SearchConfig` of `config`; `SPEC_FULL.md`, 10.4): what a match in each
field counts, how highlights are cut and marked, and how many results there are. Every setting has a
default, which stands where a configuration says nothing.
-/

namespace DocumentSearch

/-- What a match in each field counts (`FieldWeights`). -/
structure Weights (α : Type) where
  title : α
  tags : α
  path : α
  description : α
  content : α
  author : α

/-- What a match in the field counts. -/
def Weights.of {α : Type} (w : Weights α) : Field → α
  | .title => w.title
  | .tags => w.tags
  | .path => w.path
  | .description => w.description
  | .content => w.content
  | .author => w.author

/-- The weights by default. -/
def Weights.standard {α : Type} [OfScientific α] : Weights α where
  title := 3.0
  tags := 2.5
  path := 2.0
  description := 1.5
  content := 1.0
  author := 1.0

/-- How highlights are cut and marked (`HighlightConfig`). -/
structure HighlightStyle where
  /-- The number of characters shown on each side of a match. -/
  contextChars : Nat := 50
  /-- The greatest number of fragments in a field. -/
  maxFragments : Nat := 3
  preTag : Text := "<mark>".toList
  postTag : Text := "</mark>".toList
  /-- What stands where a fragment was cut off. -/
  ellipsis : Text := "...".toList
deriving DecidableEq, Repr

/-- A configuration of the search (`SearchConfig`). -/
structure Config (α : Type) where
  weights : Weights α
  highlight : HighlightStyle := {}
  /-- The number of results where a search asks for no other. -/
  defaultLimit : Nat := 20

/-- The configuration by default. -/
def Config.standard {α : Type} [OfScientific α] : Config α where
  weights := Weights.standard

/-! ## Reading -/

/-- The weights that a record gives. -/
def Weights.ofData? (surplus : Bool) (d : Data) : Option (Weights Float) :=
  let standard : Weights Float := .standard
  if d.isRecord surplus 6 then do
    return {
      title := ← d.fieldOr 0 "title" Data.float? standard.title
      tags := ← d.fieldOr 1 "tags" Data.float? standard.tags
      path := ← d.fieldOr 2 "path" Data.float? standard.path
      description := ← d.fieldOr 3 "description" Data.float? standard.description
      content := ← d.fieldOr 4 "content" Data.float? standard.content
      author := ← d.fieldOr 5 "author" Data.float? standard.author }
  else none

/-- The style of highlights that a record gives. -/
def HighlightStyle.ofData? (surplus : Bool) (d : Data) : Option HighlightStyle :=
  let standard : HighlightStyle := {}
  if d.isRecord surplus 5 then do
    return {
      contextChars := ← d.fieldOr 0 "context_chars" Data.size? standard.contextChars
      maxFragments := ← d.fieldOr 1 "max_fragments" Data.size? standard.maxFragments
      preTag := ← d.fieldOr 2 "pre_tag" Data.text? standard.preTag
      postTag := ← d.fieldOr 3 "post_tag" Data.text? standard.postTag
      ellipsis := ← d.fieldOr 4 "ellipsis" Data.text? standard.ellipsis }
  else none

/-- The configuration that a record gives. Lists in place of records can be too long only where
`surplus` items are passed over. -/
def Config.ofData? (surplus : Bool) (d : Data) : Option (Config Float) :=
  let standard : Config Float := .standard
  if d.isRecord surplus 3 then do
    return {
      weights := ← d.fieldOr 0 "weights" (Weights.ofData? surplus) standard.weights
      highlight := ← d.fieldOr 1 "highlight" (HighlightStyle.ofData? surplus) standard.highlight
      defaultLimit := ← d.fieldOr 2 "default_limit" Data.size? standard.defaultLimit }
  else none

end DocumentSearch
