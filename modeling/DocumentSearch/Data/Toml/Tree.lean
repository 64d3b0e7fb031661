import DocumentSearch.Data.Value

/-!
# Tables in TOML

A document fills a tree of tables, to which every header and every key adds. A table can be opened
by a header of its own only once, and only if it came into being as the parent of another one.
Tables made by dotted keys can be extended by dotted keys alone; values, among them inline tables,
not at all.
-/

namespace DocumentSearch.Toml

/-- How a table came into being. -/
inductive Origin where
  /-- By its own header. -/
  | header
  /-- As the parent of a table with a header. -/
  | parent
  /-- By a dotted key. -/
  | dotted
deriving DecidableEq, Repr

/-- A part of the document. -/
inductive Node where
  | value (d : Data)
  | table (origin : Origin) (entries : List (Text × Node))
  /-- The tables opened by headers in double brackets. -/
  | tables (elements : List (List (Text × Node)))

/-- The entries of a table in the order in which they were made. -/
abbrev Entries := List (Text × Node)

/-- Puts another node under a key that is there. -/
def replaceEntry (key : Text) (node : Node) (entries : Entries) : Entries :=
  entries.map fun (k, n) => if k = key then (k, node) else (k, n)

/-- Changes the last of several tables. -/
def changeLast (f : Entries → Option Entries) (elements : List Entries) : Option (List Entries) :=
  match elements.reverse with
  | [] => none
  | last :: others => (f last).map fun last => (last :: others).reverse

/-- Changes the table at the path of a header. Tables on the way are made as parents; of several
tables the last one is meant. -/
def changeAt (f : Entries → Option Entries) : List Text → Entries → Option Entries
  | [], entries => f entries
  | key :: path, entries =>
    match entries.lookup key with
    | none => (changeAt f path []).map fun sub => entries ++ [(key, .table .parent sub)]
    | some (.table origin sub) =>
      (changeAt f path sub).map fun sub => replaceEntry key (.table origin sub) entries
    | some (.tables elements) =>
      (changeLast (changeAt f path) elements).map fun elements =>
        replaceEntry key (.tables elements) entries
    | some (.value _) => none

/-- Opens a table by its header. -/
def openTable (key : Text) (entries : Entries) : Option Entries :=
  match entries.lookup key with
  | none => some (entries ++ [(key, .table .header [])])
  | some (.table .parent sub) => some (replaceEntry key (.table .header sub) entries)
  | some _ => none

/-- Opens one more of several tables by its header. -/
def openElement (key : Text) (entries : Entries) : Option Entries :=
  match entries.lookup key with
  | none => some (entries ++ [(key, .tables [[]])])
  | some (.tables elements) => some (replaceEntry key (.tables (elements ++ [[]])) entries)
  | some _ => none

/-- Puts a value under a key behind the dotted path. `isOpen` says that keys can be added to the
table, which is so for the one that the path starts in and for those made by dotted keys. -/
def putValue (isOpen : Bool) (key : Text) (d : Data) : List Text → Entries → Option Entries
  | [], entries =>
    if isOpen && (entries.lookup key).isNone then some (entries ++ [(key, .value d)]) else none
  | part :: path, entries =>
    match entries.lookup part with
    | none =>
      (putValue true key d path []).map fun sub => entries ++ [(part, .table .dotted sub)]
    | some (.table .dotted sub) =>
      (putValue true key d path sub).map fun sub => replaceEntry part (.table .dotted sub) entries
    | some (.table .parent sub) =>
      (putValue false key d path sub).map fun sub => replaceEntry part (.table .parent sub) entries
    | some (.tables elements) =>
      (changeLast (putValue false key d path) elements).map fun elements =>
        replaceEntry part (.tables elements) entries
    | some _ => none

mutual

/-- The data in a part of the document. -/
def Node.data : Node → Data
  | .value d => d
  | .table _ entries => .table (entriesData entries)
  | .tables elements => .list (elementsData elements)

/-- The data in the entries of a table. -/
def entriesData : Entries → List (Text × Data)
  | [] => []
  | (key, node) :: entries => (key, node.data) :: entriesData entries

/-- The data in several tables. -/
def elementsData : List Entries → List Data
  | [] => []
  | entries :: elements => .table (entriesData entries) :: elementsData elements

end

end DocumentSearch.Toml
