import DocumentSearch.Query.Parser
import DocumentSearch.Search.Ranking

/-!
# The index

The `SearchIndex` of `search/index`: the documents that can be searched, in the order of the items
they were built from, and the configuration of the search. The id of a document is its position.
-/

namespace DocumentSearch

open Text

/-- An index of documents. -/
structure Index (α : Type) where
  config : Config α
  documents : List Document := []

namespace Index

variable {α : Type}

/-- The documents of the items, numbered in order. -/
def documentsOf (items : List Item) : List Document :=
  items.zipIdx.map fun (item, id) => Document.ofItem id item

/-- The index of the items (`build_with_config`). -/
def build (config : Config α) (items : List Item) : Index α := ⟨config, documentsOf items⟩

/-- The index of other items, with the same configuration. -/
def rebuild (index : Index α) (items : List Item) : Index α := build index.config items

/-- The document with the given id. -/
def get? (index : Index α) (id : Nat) : Option Document := index.documents[id]?

/-- The best results for a text, which is a query if it can be read as one. Otherwise its words are
searched for; a blank text has no results. -/
def searchWithLimit [Score α] [PatternReader] (index : Index α) (t : Text) (limit : Nat) :
    List (Result α) :=
  if (trim t).isEmpty then []
  else match Query.ofText t with
    | .ok q => rank index.config q index.documents limit
    | .error _ => plainSearch t index.documents limit

/-- The best results for a text, as many as the configuration says. -/
def search [Score α] [PatternReader] (index : Index α) (t : Text) : List (Result α) :=
  index.searchWithLimit t index.config.defaultLimit

/-! ## Suggestions -/

/-- The titles and tags of the documents, in the order of the index. -/
def candidates (index : Index α) : List Text := index.documents.flatMap fun d => d.title :: d.tags

/-- The first of the texts whose lower case is not that of an earlier one or of one seen before. -/
def distinctFolded (seen : List Text) : List Text → List Text
  | [] => []
  | t :: ts =>
    if seen.contains (lower t) then distinctFolded seen ts
    else t :: distinctFolded (lower t :: seen) ts

/-- The first titles and tags in which the input occurs, whatever its case. -/
def suggest (index : Index α) (input : Text) (limit : Nat) : List Text :=
  let needle := lower (trim input)
  if needle.isEmpty then []
  else (distinctFolded [] (index.candidates.filter fun t => occursIn needle (lower t))).take limit

end Index

end DocumentSearch
