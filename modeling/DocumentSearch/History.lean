import DocumentSearch.Data.Json
import DocumentSearch.Data.Value
import DocumentSearch.Text.WhiteSpace

/-!
# Search history

The queries that were run (`SearchHistory` of `history`), latest first, each of them once and not
more than a given number.
-/

namespace DocumentSearch

/-- Queries that were run, latest first. -/
structure History where
  capacity : Nat := 20
  entries : List Text := []
deriving DecidableEq, Repr

namespace History

/-- An empty history for the given number of queries. -/
def withCapacity (capacity : Nat) : History := { capacity := capacity }

/-- Puts a query in front. A query that is there already moves to the front; a blank one is
ignored. -/
def record (h : History) (query : Text) : History :=
  let query := Text.trim query
  if query.isEmpty then h
  else { h with entries := (query :: h.entries.filter (· != query)).take h.capacity }

/-- Forgets all queries. -/
def clear (h : History) : History := { h with entries := [] }

/-- A history with the given entries, latest first, as they are restored from a list. -/
def ofEntries (entries : List Text) : History := entries.foldr (fun query h => h.record query) {}

/-- The history that a list of texts stands for. -/
def ofData? (d : Data) : Option History := d.texts?.map ofEntries

/-- The history as a list of texts. -/
def toData (h : History) : Data := .list (h.entries.map .text)

/-- The history in JSON. -/
def json (h : History) : Text := Json.textList h.entries

end History

end DocumentSearch
