import DocumentSearch.Document.Basic
import DocumentSearch.Metadata.ReadingTime
import DocumentSearch.Search.Highlight

/-!
# Results

A result (`SearchResult` of `search/rank`) is a copy of what is shown of a document that was found,
with its score and its highlights. It does not change when the index is built anew.
-/

namespace DocumentSearch

/-- What is shown of a document that was found. -/
structure Result (α : Type) where
  id : Nat
  name : Text
  title : Text
  path : Text
  kind : Kind
  content : Text
  tags : List Text
  metadata : Metadata
  score : α
  highlights : List Highlight

namespace Result

variable {α : Type}

/-- The result that shows a document (`from_document`). -/
def ofDocument (d : Document) (score : α) (highlights : List Highlight) : Result α where
  id := d.id
  name := d.name
  title := d.title
  path := d.path
  kind := d.kind
  content := d.content
  tags := d.tags
  metadata := d.metadata
  score := score
  highlights := highlights

/-- The reading time in minutes, if the metadata of the document give one (`reading_time`). -/
def readingTime? (r : Result α) : Option Float := r.metadata.readingTime?

end Result

end DocumentSearch
