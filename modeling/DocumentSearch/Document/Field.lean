import DocumentSearch.Text.Basic

/-!
# Fields

The parts of a document that are searched, in the order in which they are searched (`Field` of
`document`).

Results:

* `ofName?_name`: every field is found by its name.
-/

namespace DocumentSearch

/-- A part of a document that can be searched on its own. -/
inductive Field where
  | title
  | content
  | path
  | tags
  | description
  | author
deriving DecidableEq, Repr

namespace Field

/-- All fields, which is where terms and wildcards are looked for. -/
def all : List Field := [.title, .content, .path, .tags, .description, .author]

/-- The fields in which phrases are looked for. -/
def forPhrases : List Field := [.title, .content, .description]

/-- The fields in which fuzzy terms are looked for. -/
def forFuzzyTerms : List Field := [.title, .content, .path, .description, .author]

/-- The name of the field. -/
def name : Field → Text
  | .title => "title".toList
  | .content => "content".toList
  | .path => "path".toList
  | .tags => "tags".toList
  | .description => "description".toList
  | .author => "author".toList

/-- The field with the given name. -/
def ofName? (name : Text) : Option Field := all.find? fun f => f.name == name

/-- The field that a query names, in any mixture of cases. -/
def ofScope? (name : Text) : Option Field := ofName? (name.map Char.toLower)

@[simp] theorem ofName?_name (f : Field) : ofName? f.name = some f := by cases f <;> decide

/-- What is said of a name that is no field. -/
def unknownMessage (name : Text) : String :=
  let name := String.ofList name
  s!"unknown field '{name}'"

end Field

end DocumentSearch
