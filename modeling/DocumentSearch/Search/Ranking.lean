import DocumentSearch.Search.Evaluation
import DocumentSearch.Search.Result
import DocumentSearch.Search.Salvage

/-!
# Ranking

The functions `rank` and `simple_search` of `search/rank` (`SPEC_FULL.md`, 4.5): the documents that
match, best first. Documents of equal score stay in the order of the index.
-/

namespace DocumentSearch

open Text

variable {α : Type} [Score α]

/-- The results with the greatest scores first, up to the limit. -/
def best (results : List (Result α)) (limit : Nat) : List (Result α) :=
  (results.mergeSort fun a b => Score.atMost b.score a.score).take limit

/-- The documents that match a query. -/
def matching [PatternReader] (config : Config α) (q : Query) (documents : List Document) :
    List (Result α) :=
  let e := Evaluator.forQuery config q
  documents.filterMap fun d =>
    let outcome := e.evaluate q d
    if outcome.isMatch then some (.ofDocument d outcome.score outcome.highlights) else none

/-- The documents that match a query best (`rank`). -/
def rank [PatternReader] (config : Config α) (q : Query) (documents : List Document)
    (limit : Nat) : List (Result α) :=
  best (matching config q documents) limit

/-! ## Without a query -/

/-- What a document scores for a word that occurs in it (`simple_score`): 3 for the title, 2 for the
path, 1 for the content and 2 for a tag. -/
def plainScore (d : Document) (word : Text) : α :=
  let add := fun (score : α) (occurs : Bool) (points : α) =>
    if occurs then score + points else score
  let score := add 0.0 (occursIn word (d.fieldText .title)) 3.0
  let score := add score (occursIn word (d.fieldText .path)) 2.0
  let score := add score (occursIn word (d.fieldText .content)) 1.0
  add score (d.tags.any fun tag => occursIn word (lower tag)) 2.0

/-- The documents in which some of the words occur. -/
def containing (terms : List Text) (documents : List Document) : List (Result α) :=
  documents.filterMap fun d =>
    let score := terms.foldl (fun sum term => sum + plainScore d term) (0.0 : α)
    if Score.isPositive score then some (.ofDocument d score []) else none

/-- The documents in which the words of a text that is no query occur most (`simple_search`). -/
def plainSearch (t : Text) (documents : List Document) (limit : Nat) : List (Result α) :=
  match salvageTerms t with
  | [] => []
  | terms => best (containing terms documents) limit

end DocumentSearch
