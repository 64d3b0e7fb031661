import DocumentSearch.Document.Item
import DocumentSearch.Source.Walk

/-!
# Content from files

What the files of a content directory hold (`load_directory` of `source`): demos, pages beside a
demo, and pages of their own. A demo and the page beside it have the same name, which is that of the
file without its ending. Files that cannot be read count for nothing, so that the page beside such a
demo stands on its own.
-/

namespace DocumentSearch

open Text

/-- A file with its name as seen from the content directory, and its text if that can be read. -/
structure ContentFile where
  name : Text
  text : Option Text

namespace ContentFile

/-- The endings of demos (`DEMO_SUFFIXES`). -/
def demoEndings : List Text :=
  [".demo.jsx".toList, ".demo.tsx".toList, ".demo.html".toList]

/-- The ending of pages (`MARKDOWN_SUFFIX`). -/
def pageEnding : Text := ".md".toList

/-- The name of the demo that the file holds. -/
def demoName? (f : ContentFile) : Option Text :=
  demoEndings.findSome? fun ending => beforeSuffix? ending f.name

/-- The name of the page that the file holds. -/
def pageName? (f : ContentFile) : Option Text := beforeSuffix? pageEnding f.name

end ContentFile

/-! ## Demos and pages -/

/-- The files that hold pages, each under the name of its page. A table of them gives them out in
any order. -/
def pageTable (files : List ContentFile) : List (Text × ContentFile) :=
  files.filterMap fun f => f.pageName?.map fun name => (name, f)

/-- The item of a demo with the text of the page beside it. -/
def demoItem (name code : Text) (page : Option ContentFile) : Item :=
  let demo := ((Item.named name).withKind .demo).withRawContent code
  match page.bind ContentFile.text with
  | some text => demo.withMarkdown text
  | none => demo

/-- The demos found so far, and the names of the pages that stand beside them. -/
structure Demos where
  items : List Item := []
  paired : List Text := []

/-- Adds the demo that a file holds. -/
def Demos.add (pages : List (Text × ContentFile)) (demos : Demos) (f : ContentFile) : Demos :=
  match f.demoName?, f.text with
  | some name, some code =>
    let page := pages.lookup name
    { items := demos.items ++ [demoItem name code page]
      paired := if page.isSome then name :: demos.paired else demos.paired }
  | _, _ => demos

/-- The demos that files hold. -/
def Demos.ofFiles (pages : List (Text × ContentFile)) (files : List ContentFile) : Demos :=
  files.foldl (Demos.add pages) {}

/-- The item of a page, unless the page stands beside a demo. -/
def pageItem? (paired : List Text) : Text × ContentFile → Option Item
  | (name, f) =>
    if name ∈ paired then none
    else f.text.map fun text => ((Item.named name).withKind .markdown).withMarkdown text

/-! ## All items -/

/-- The files sorted by name. -/
def sortFiles (files : List ContentFile) : List ContentFile :=
  files.mergeSort fun f g => atMost f.name g.name

/-- The items sorted by name. Those of equal name keep their order. -/
def sortByName (items : List Item) : List Item :=
  items.mergeSort fun a b => atMost a.name b.name

/-- The items that the files hold, of which the table holds the pages. -/
def itemsOf (files : List ContentFile) (pages : List (Text × ContentFile)) : List Item :=
  let demos := Demos.ofFiles pages files
  sortByName (demos.items ++ pages.filterMap (pageItem? demos.paired))

/-- The items that the files hold, sorted by name. Demos of equal name are in the order of the names
of their files. -/
def contentItems (files : List ContentFile) : List Item :=
  itemsOf (sortFiles files) (pageTable (sortFiles files))

/-! ## Content directories -/

/-- Why there is no content. -/
inductive SourceError where
  /-- The path does not lead to a directory. -/
  | notDirectory (root : Text)
deriving DecidableEq, Repr

/-- The message of an error. -/
def SourceError.message : SourceError → String
  | .notDirectory root => "Content root " ++ String.ofList root ++ " is not a directory"

/-- The files that a walk through the directory at a place visits. -/
def contentFiles (tree : FileTree) (root : List Text) (node : FileTree) : List ContentFile :=
  (FileTree.walk tree (RuleSet.above tree root) root node).map fun f =>
    { name := ['/'].intercalate (f.place.drop root.length), text := decode? f.bytes }

/-- The items in the content directory that a path leads to (`load_directory`). -/
def loadContent (tree : FileTree) (path : Text) : Except SourceError (List Item) :=
  match tree.locate? path with
  | none => .error (.notDirectory path)
  | some root =>
    match tree.atPlace? root with
    | some (.directory entries) => .ok (contentItems (contentFiles tree root (.directory entries)))
    | _ => .error (.notDirectory path)

end DocumentSearch
