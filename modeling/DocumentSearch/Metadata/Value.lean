import DocumentSearch.Decimal.Notation
import DocumentSearch.Text.Basic

/-!
# Metadata of a document

Metadata (`Metadata` of `metadata`) is a map from keys to loosely typed values. Its entries stand in
the order of their keys.

Results:

* `get?_insert_self`, `get?_insert_of_ne`: an inserted value is found under its key and nowhere
  else.
-/

namespace DocumentSearch

/-- A value in the metadata of a document. -/
inductive MetadataValue where
  | text (value : Text)
  | boolean (value : Bool)
  | integer (value : Int)
  | number (value : Float)
  | list (items : List Text)

/-- Numbers in metadata become text with a point, without exponent from `10 ^ -5` up to below
`10 ^ 16`, and with a signed exponent elsewhere. -/
def metadataNotation : Decimal.Notation where
  positional e := -5 ≤ e && e < 16
  pointZero := true
  plusSign := true
  tie := .toEven

/-- An integer as text. -/
def integerText (n : Int) : Text :=
  if n < 0 then '-' :: Decimal.natText n.natAbs else Decimal.natText n.natAbs

/-- The text of a value; a list has none. -/
def MetadataValue.text? : MetadataValue → Option Text
  | .text value => some value
  | .boolean value => some (if value then "true".toList else "false".toList)
  | .integer value => some (integerText value)
  | .number value => some (metadataNotation.text value)
  | .list _ => none

/-- The items of a list; a text is a list of one item. Empty items are left out. -/
def MetadataValue.items : MetadataValue → List Text
  | .text value => [value].filter (!·.isEmpty)
  | .list items => items.filter (!·.isEmpty)
  | _ => []

/-- The value as a number, if it is one. -/
def MetadataValue.float? : MetadataValue → Option Float
  | .integer value => some (Float.ofInt value)
  | .number value => some value
  | _ => none

/-- The metadata of a document, in the order of the keys. -/
structure Metadata where
  entries : List (Text × MetadataValue)

namespace Metadata

/-- No metadata. -/
def empty : Metadata := ⟨[]⟩

/-- The value in the first entry with the key. -/
def get? (m : Metadata) (key : Text) : Option MetadataValue := m.entries.lookup key

/-- The entries with a value put under its key. -/
def insertEntry (key : Text) (value : MetadataValue) :
    List (Text × MetadataValue) → List (Text × MetadataValue)
  | [] => [(key, value)]
  | (k, v) :: entries =>
    if key = k then (key, value) :: entries
    else if Text.atMost key k then (key, value) :: (k, v) :: entries
    else (k, v) :: insertEntry key value entries

/-- Puts a value under its key, in place of the value that was there. -/
def insert (m : Metadata) (key : Text) (value : MetadataValue) : Metadata :=
  ⟨insertEntry key value m.entries⟩

@[simp] theorem get?_empty (key : Text) : empty.get? key = none := rfl

@[simp] theorem get?_insert_self (m : Metadata) (key : Text) (value : MetadataValue) :
    (m.insert key value).get? key = some value := by
  obtain ⟨entries⟩ := m
  simp only [insert, get?]
  induction entries with
  | nil => simp [insertEntry]
  | cons e entries ih =>
    obtain ⟨k, v⟩ := e
    by_cases hk : key = k
    · simp [insertEntry, hk]
    · have hb : (key == k) = false := by simpa using hk
      by_cases ha : Text.atMost key k
      · simp [insertEntry, hk, ha]
      · simp [insertEntry, hk, ha, List.lookup_cons, hb, ih]

theorem get?_insert_of_ne (m : Metadata) {key other : Text} (value : MetadataValue)
    (h : other ≠ key) : (m.insert key value).get? other = m.get? other := by
  obtain ⟨entries⟩ := m
  have ho : (other == key) = false := by simpa using h
  simp only [insert, get?]
  induction entries with
  | nil => simp [insertEntry, List.lookup_cons, ho]
  | cons e entries ih =>
    obtain ⟨k, v⟩ := e
    by_cases hk : key = k
    · subst hk; simp [insertEntry, List.lookup_cons, ho]
    · by_cases ha : Text.atMost key k
      · simp [insertEntry, hk, ha, List.lookup_cons, ho]
      · simp [insertEntry, hk, ha, List.lookup_cons, ih]

end Metadata

end DocumentSearch
