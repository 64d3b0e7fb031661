import DocumentSearch.Text.Basic

/-!
# Structured data

The values that a data format such as JSON or TOML spells, and how records are read from them. A
record is a table, whose other keys do not matter, or a list of its fields in order, of which the
last ones may be missing.
-/

namespace DocumentSearch

/-- A value of a data format. -/
inductive Data where
  | null
  | boolean (value : Bool)
  | integer (value : Int)
  | float (value : Float)
  | text (value : Text)
  /-- A date, a time or both, as it is spelled. -/
  | moment (spelling : Text)
  | list (items : List Data)
  | table (entries : List (Text × Data))

namespace Data

/-- The greatest number that counts or limits something. -/
def maxSize : Nat := 0xFFFFFFFFFFFFFFFF

/-- The least integer of 64 bits. -/
def minInteger : Int := -0x8000000000000000

/-- The value as a number: a number with a point, or an integer of 64 bits with or without a
sign. -/
def float? : Data → Option Float
  | .float value => some value
  | .integer value =>
    if minInteger ≤ value && value ≤ maxSize then some (Float.ofInt value) else none
  | _ => none

/-- The value as a size: an integer of 64 bits without a sign. -/
def size? : Data → Option Nat
  | .integer value => if 0 ≤ value && value ≤ maxSize then some value.toNat else none
  | _ => none

/-- The value as a text. -/
def text? : Data → Option Text
  | .text value => some value
  | _ => none

/-- The value as a text or nothing. -/
def optionalText? : Data → Option (Option Text)
  | .null => some none
  | .text value => some (some value)
  | _ => none

/-- The value as a list of texts. -/
def texts? : Data → Option (List Text)
  | .list items => items.mapM text?
  | _ => none

/-- Can the value be a record with the given number of fields? A list with more items can only where
`surplus` items are passed over. A moment can: it is a record of its own parts, and has none of the
fields. -/
def isRecord (surplus : Bool) (fields : Nat) : Data → Bool
  | .table _ | .moment _ => true
  | .list items => surplus || items.length ≤ fields
  | _ => false

/-- The field of a record with the given name and index, if it is there. -/
def field? (d : Data) (index : Nat) (name : String) : Option Data :=
  match d with
  | .table entries => entries.lookup name.toList
  | .list items => items[index]?
  | _ => none

/-- The field of a record, read by `read?`; `default` stands for a field that is not there. -/
def fieldOr {α : Type} (d : Data) (index : Nat) (name : String) (read? : Data → Option α)
    (default : α) : Option α :=
  match d.field? index name with
  | some value => read? value
  | none => some default

end Data

end DocumentSearch
