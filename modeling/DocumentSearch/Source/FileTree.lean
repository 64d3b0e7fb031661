import DocumentSearch.Text.Utf8

/-!
# File trees

A tree of directories, files and links, and what a path leads to in it. A place is the list of names
from the top of the tree down. A path can go through links, through its own directory by `.` and up
by `..`; a place does none of this.

Results:

* `child?_setEntry`: under a name stands what was put there last, and other names keep what they
  had.
-/

namespace DocumentSearch

/-- What stands under a name. -/
inductive FileTree where
  | file (bytes : List UInt8)
  | link (target : Text)
  | directory (entries : List (Text × FileTree))

namespace FileTree

/-- The entries of a directory. -/
def entries : FileTree → List (Text × FileTree)
  | .directory entries => entries
  | _ => []

/-- Is it a directory? -/
def isDirectory : FileTree → Bool
  | .directory _ => true
  | _ => false

/-- The bytes of a file. -/
def bytes? : FileTree → Option (List UInt8)
  | .file bytes => some bytes
  | _ => none

/-- What a directory holds under a name. -/
def child? (tree : FileTree) (name : Text) : Option FileTree := tree.entries.lookup name

/-- What stands at a place. -/
def atPlace? (tree : FileTree) (place : List Text) : Option FileTree :=
  place.foldlM (fun node name => node.child? name) tree

/-! ## Paths -/

/-- The steps of a path. A slash at the end counts as a step to the directory itself. -/
def pathSteps (path : Text) : List Text :=
  (Text.splitAll '/' path).map fun step => if step.isEmpty then ['.'] else step

/-- Where a path starts that is seen from a directory. -/
def start (here : List Text) (path : Text) : List Text :=
  if path.head? = some '/' then [] else here

/-- The number of links that a path can go through. -/
def maxLinks : Nat := 40

/-- The place that the steps lead to, from a directory on. At most `links` links are followed, and
no step leads up from the top. -/
def follow (tree : FileTree) (links : Nat) (here : List Text) (steps : List Text) :
    Option (List Text) :=
  match steps with
  | [] => some here
  | step :: steps =>
    match tree.atPlace? here with
    | some (.directory entries) =>
      if step = ['.'] then tree.follow links here steps
      else if step = ['.', '.'] then
        if here.isEmpty then none else tree.follow links here.dropLast steps
      else match entries.lookup step, links with
        | none, _ => none
        | some (.link _), 0 => none
        | some (.link target), links + 1 =>
          tree.follow links (start here target) (pathSteps target ++ steps)
        | some _, links => tree.follow links (here ++ [step]) steps
    | _ => none
termination_by (links, steps.length)

/-- The place that a path leads to, seen from the directory at a place. -/
def locateFrom? (tree : FileTree) (here : List Text) (path : Text) : Option (List Text) :=
  tree.follow maxLinks (start here path) (pathSteps path)

/-- The place that a path leads to, seen from the top. -/
def locate? (tree : FileTree) (path : Text) : Option (List Text) := tree.locateFrom? [] path

/-- What a path leads to, seen from the directory at a place. -/
def findFrom? (tree : FileTree) (here : List Text) (path : Text) : Option FileTree :=
  (tree.locateFrom? here path).bind tree.atPlace?

/-- What a path leads to, seen from the top. -/
def find? (tree : FileTree) (path : Text) : Option FileTree := tree.findFrom? [] path

/-- The text of the file that a path leads to, if it is UTF-8. -/
def readText? (tree : FileTree) (path : Text) : Option Text := do
  let node ← tree.find? path
  Text.decode? (← node.bytes?)

/-! ## Growing a tree -/

/-- Puts a node under a name, in the place of the one that is there or behind all others. -/
def setEntry (name : Text) (node : FileTree) :
    List (Text × FileTree) → List (Text × FileTree)
  | [] => [(name, node)]
  | (other, old) :: entries =>
    if other = name then (name, node) :: entries else (other, old) :: setEntry name node entries

theorem child?_setEntry {name other : Text} {node : FileTree} {entries : List (Text × FileTree)} :
    (directory (setEntry name node entries)).child? other =
      if other = name then some node else (directory entries).child? other := by
  simp only [child?, FileTree.entries]
  induction entries with
  | nil => by_cases h : other = name <;> simp [setEntry, h]
  | cons e entries ih =>
    obtain ⟨key, old⟩ := e
    by_cases hk : key = name
    · subst hk
      by_cases h : other = key
      · simp [setEntry, h]
      · simp [setEntry, List.lookup_cons, h, beq_eq_false_iff_ne.2 h]
    · by_cases h : other = key
      · subst h
        simp [setEntry, hk]
      · simp [setEntry, hk, List.lookup_cons, beq_eq_false_iff_ne.2 h, ih]

/-- Puts a node at a place. Directories that are missing on the way are made. -/
def put (node : FileTree) : List Text → FileTree → FileTree
  | [], _ => node
  | name :: place, tree =>
    let inner := (tree.child? name).getD (.directory [])
    .directory (setEntry name (put node place inner) tree.entries)

/-- The place for a new node at a path. A step that leads nowhere yet is the name of what is to be
made. -/
def placeFor (tree : FileTree) (here : List Text) : List Text → List Text
  | [] => here
  | step :: steps =>
    match tree.follow maxLinks here [step] with
    | some place => tree.placeFor place steps
    | none => tree.placeFor (if step = ['.'] then here else here ++ [step]) steps

/-- Makes a node at a path, with the directories that it stands in. A directory that is there
stays. -/
def make (tree : FileTree) (path : Text) (node : FileTree) : FileTree :=
  let place := tree.placeFor (start [] path) (pathSteps path)
  match node, tree.atPlace? place with
  | .directory [], some (.directory _) => tree
  | node, _ => put node place tree

end FileTree

end DocumentSearch
