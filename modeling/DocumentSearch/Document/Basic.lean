import DocumentSearch.Document.Field
import DocumentSearch.Document.Item
import DocumentSearch.Metadata.FrontMatter
import DocumentSearch.Text.LowerCase

/-!
# Documents

A document (`IndexedDocument` of `document`) is what the index keeps of a content item. Title,
author, description and tags come from the metadata in front of its text; the title falls back to
the name of the item, and so does the path. Whatever is searched is in lower case.
-/

namespace DocumentSearch

/-- A document of the index. -/
structure Document where
  id : Nat
  name : Text
  path : Text
  kind : Kind
  title : Text
  /-- The text without its metadata and the code, in lower case. -/
  content : Text
  tags : List Text
  author : Option Text
  description : Option Text
  metadata : Metadata

/-- The text under the key, if it is not empty (`metadata_str`). -/
def Metadata.text? (m : Metadata) (key : String) : Option Text :=
  ((m.get? key.toList).bind MetadataValue.text?).filter (!·.isEmpty)

/-- The list under the key, which is empty if there is none (`metadata_list`). -/
def Metadata.items (m : Metadata) (key : String) : List Text :=
  match m.get? key.toList with
  | some value => value.items
  | none => []

/-- The list with the elements of another one added that it does not have yet. -/
def addNew (present added : List Text) : List Text :=
  added.foldl (fun ts t => if ts.contains t then ts else ts ++ [t]) present

namespace Document

/-- The document with the given id that an item becomes (`from_item`). Metadata that cannot be read
is dropped. -/
def ofItem (id : Nat) (item : Item) : Document :=
  let front := (item.markdown.map FrontMatter.ofText).getD ⟨Metadata.empty, [], none⟩
  let code := match item.rawContent with
    | some raw => '\n' :: raw
    | none => []
  { id := id
    name := item.name
    path := item.path.getD item.name
    kind := item.kind
    title := (front.metadata.text? "title").getD item.name
    content := Text.lower (front.body ++ code)
    tags := addNew item.tags (front.metadata.items "tags")
    author := front.metadata.text? "author"
    description := front.metadata.text? "description"
    metadata := front.metadata }

/-- The text of a field, in lower case. Tags are separated by blanks. -/
def fieldText (d : Document) : Field → Text
  | .title => Text.lower d.title
  | .content => d.content
  | .path => Text.lower d.path
  | .tags => Text.lower ([' '].intercalate d.tags)
  | .description => Text.lower (d.description.getD [])
  | .author => Text.lower (d.author.getD [])

end Document

end DocumentSearch
