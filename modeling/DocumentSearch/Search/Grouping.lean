import DocumentSearch.Search.Ranking

/-!
# Groups of results

The function `group_by_kind` of `search/rank`: results grouped by the kind of their document. The
groups stand in the order in which their kinds first appear, and every result keeps its rank.
-/

namespace DocumentSearch

/-- The results of one kind with their ranks. -/
structure ResultGroup (α : Type) where
  kind : Kind
  entries : List (Nat × Result α)

variable {α : Type}

/-- Adds a result to the group of its kind, which is the last one if it is new. -/
def addToGroup (rank : Nat) (r : Result α) : List (ResultGroup α) → List (ResultGroup α)
  | [] => [⟨r.kind, [(rank, r)]⟩]
  | g :: groups =>
    if g.kind = r.kind then ⟨g.kind, g.entries ++ [(rank, r)]⟩ :: groups
    else g :: addToGroup rank r groups

/-- The results grouped by kind (`group_by_kind`). Ranks count from 0. -/
def groupByKind (results : List (Result α)) : List (ResultGroup α) :=
  results.zipIdx.foldl (fun groups (r, rank) => addToGroup rank r groups) []

end DocumentSearch
