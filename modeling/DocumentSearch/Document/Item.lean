import DocumentSearch.Data.Value

/-!
# Content items

What a source of content hands to the index (`ContentItem` and `DocKind` of `document`). Only the
name is required.
-/

namespace DocumentSearch

/-- What a content item is (`DocKind`). -/
inductive Kind where
  /-- An interactive demo, which can have a text beside its code. -/
  | demo
  /-- A page of text. -/
  | markdown
  /-- A file of code. -/
  | code
deriving DecidableEq, Repr

/-- The name of a kind. -/
def Kind.name : Kind → Text
  | .demo => "demo".toList
  | .markdown => "markdown".toList
  | .code => "code".toList

/-- The kind with the given name. -/
def Kind.ofName? (name : Text) : Option Kind :=
  [Kind.demo, .markdown, .code].find? fun k => k.name == name

/-- The kind that a value spells: its name, alone or as the key of a table with nothing else. -/
def Kind.ofData? : Data → Option Kind
  | .text name => ofName? name
  | .table [(name, .null)] => ofName? name
  | _ => none

/-- A content item (`ContentItem`). -/
structure Item where
  name : Text
  /-- Where the item is found; its name if nothing else is said. -/
  path : Option Text := none
  kind : Kind := .demo
  tags : List Text := []
  /-- A text, which can begin with a metadata block. -/
  markdown : Option Text := none
  /-- Code, which is searched behind the text. -/
  rawContent : Option Text := none
deriving DecidableEq, Repr

namespace Item

/-- An item with a name and nothing else. -/
def named (name : Text) : Item := { name := name }

/-- The item at the given path. -/
def withPath (item : Item) (path : Text) : Item := { item with path := some path }

/-- The item as one of the given kind. -/
def withKind (item : Item) (kind : Kind) : Item := { item with kind := kind }

/-- The item with the given tags. -/
def withTags (item : Item) (tags : List Text) : Item := { item with tags := tags }

/-- The item with the given text. -/
def withMarkdown (item : Item) (markdown : Text) : Item := { item with markdown := some markdown }

/-- The item with the given code. -/
def withRawContent (item : Item) (raw : Text) : Item := { item with rawContent := some raw }

/-- The item that a record describes. -/
def ofData? (d : Data) : Option Item :=
  if d.isRecord false 6 then do
    return {
      name := ← d.fieldOr 0 "name" Data.text? []
      path := ← d.fieldOr 1 "path" Data.optionalText? none
      kind := ← d.fieldOr 2 "kind" Kind.ofData? .demo
      tags := ← d.fieldOr 3 "tags" Data.texts? []
      markdown := ← d.fieldOr 4 "markdown" Data.optionalText? none
      rawContent := ← d.fieldOr 5 "raw_content" Data.optionalText? none }
  else none

end Item

end DocumentSearch
