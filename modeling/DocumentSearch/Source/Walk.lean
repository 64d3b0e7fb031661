import DocumentSearch.Source.FileTree
import DocumentSearch.Source.IgnoreRules

/-!
# Walking through a directory

A walk, as `load_directory` of `source` makes one with the library `ignore` and its defaults, visits
the files in a directory and in the directories below it. It follows no links, and it leaves out
what ignore rules exclude and what has a hidden name. Rules stand in the directories on the way from
the top of the tree down. Those for every use come first, then those of a repository, which count
only within a repository and up to its own directory, then those that the repository keeps to
itself. Among rules of one sort those nearer to the file come first.
-/

namespace DocumentSearch

/-- The ignore rules in a directory. -/
structure RuleSet where
  /-- The place of the directory. -/
  place : List Text
  /-- The rules for every use. -/
  general : IgnoreRules
  /-- The rules of the repository. -/
  shared : IgnoreRules
  /-- The rules that the repository keeps to itself. -/
  own : IgnoreRules
  /-- Does the directory hold a repository? -/
  isRepository : Bool

namespace RuleSet

/-- The rules in a file, seen from the directory at a place. -/
def rulesIn (tree : FileTree) (place : List Text) (path : String) : IgnoreRules :=
  match tree.findFrom? place path.toList with
  | some (.file bytes) => IgnoreRules.ofBytes bytes
  | _ => []

/-- The rules in the directory at a place. -/
def ofPlace (tree : FileTree) (place : List Text) : RuleSet where
  place := place
  general := rulesIn tree place ".ignore"
  shared := rulesIn tree place ".gitignore"
  own := rulesIn tree place ".git/info/exclude"
  isRepository := (tree.findFrom? place ".git".toList).isSome ||
    (tree.findFrom? place ".jj".toList).isSome

/-- The rules in the directories above a place, the nearest first. -/
def above (tree : FileTree) (place : List Text) : List RuleSet :=
  (List.range place.length).reverse.map fun n => ofPlace tree (place.take n)

/-- The path from the directory of the rules to a place below it. -/
def pathTo (rules : RuleSet) (place : List Text) : Text :=
  ['/'].intercalate (place.drop rules.place.length)

/-- The rule sets up to the nearest one of a repository. -/
def upToRepository : List RuleSet → List RuleSet
  | [] => []
  | rules :: others => if rules.isRepository then [rules] else rules :: upToRepository others

/-- What rule sets say about a place, the nearest first. -/
def verdict? (sets : List RuleSet) (place : List Text) (isDirectory : Bool) : Option Verdict :=
  let say := fun (rules : RuleSet → IgnoreRules) (sets : List RuleSet) =>
    sets.findSome? fun set => (rules set).verdict? (set.pathTo place) isDirectory
  let near := if sets.any isRepository then upToRepository sets else []
  ((say general sets).or (say shared near)).or (say own near)

end RuleSet

/-- Is the name hidden? -/
def isHidden (name : Text) : Bool := name.head? = some '.'

/-- Is a name in the directory at a place left out? A hidden one is not, if a rule keeps it. -/
def isLeftOut (sets : List RuleSet) (place : List Text) (name : Text) (isDirectory : Bool) : Bool :=
  match RuleSet.verdict? sets (place ++ [name]) isDirectory with
  | some verdict => verdict = .ignore
  | none => isHidden name

/-- A file that a walk visits. -/
structure FoundFile where
  place : List Text
  bytes : List UInt8

mutual

/-- The files at and below a place of the tree `top`, where `node` stands. -/
def FileTree.walk (top : FileTree) (sets : List RuleSet) (place : List Text) :
    FileTree → List FoundFile
  | .file bytes => [⟨place, bytes⟩]
  | .link _ => []
  | .directory entries => FileTree.walkEntries top (RuleSet.ofPlace top place :: sets) place entries

/-- The files at and below the entries of a directory. -/
def FileTree.walkEntries (top : FileTree) (sets : List RuleSet) (place : List Text) :
    List (Text × FileTree) → List FoundFile
  | [] => []
  | (name, node) :: entries =>
    let found :=
      if isLeftOut sets place name node.isDirectory then []
      else FileTree.walk top sets (place ++ [name]) node
    found ++ FileTree.walkEntries top sets place entries

end

end DocumentSearch
