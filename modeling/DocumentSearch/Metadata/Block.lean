import DocumentSearch.Decimal.Float
import DocumentSearch.Metadata.Value
import DocumentSearch.Text.Alphabetic
import DocumentSearch.Text.WhiteSpace

/-!
# Metadata blocks

A metadata block (`parse_block` of `metadata`) has one entry `key: value` a line. Blank lines, lines
that begin with `#` and lines without a colon say nothing. A value is a list in brackets, a number,
a truth value or a text, which may be quoted.
-/

namespace DocumentSearch

open Text

/-- Why a block is no metadata (`MetadataError` of `error`). -/
inductive MetadataError where
  /-- The entry in the line has no key. Lines are counted from 1. -/
  | emptyKey (line : Nat)
  /-- The list under the key is not closed. -/
  | unterminatedList (key : Text)
deriving DecidableEq, Repr

/-- The error in words. -/
def MetadataError.message : MetadataError → String
  | .emptyKey line => s!"metadata line {line} has an empty key"
  | .unterminatedList key =>
    let name := String.ofList key
    s!"list value for '{name}' is missing its closing bracket"

/-! ## Values -/

/-- The text between two quotes of the given kind. -/
def betweenQuotes? (quote : Char) : Text → Option Text
  | [] => none
  | c :: t => if c = quote then beforeSuffix? [quote] t else none

/-- The text without the quotes around it, which are double or single ones (`strip_quotes`). -/
def unquote (t : Text) : Text :=
  match betweenQuotes? '"' t with
  | some inner => inner
  | none => (betweenQuotes? '\'' t).getD t

/-- The items of a list: what stands between the commas, without quotes and surrounding white space.
Empty items are left out. -/
def listItems (t : Text) : List Text :=
  ((splitAll ',' t).map fun item => (trim item).filter fun c => c != '\'' && c != '"').filter
    (!·.isEmpty)

/-- The integer that the text spells, if it fits into 64 bits. -/
def readInteger? (t : Text) : Option Int :=
  match Decimal.readInt? t with
  | some n => if -0x8000000000000000 ≤ n && n ≤ 0x7FFFFFFFFFFFFFFF then some n else none
  | none => none

/-- The finite number that the text spells. A text with a letter in it is no number. -/
def readNumber? (t : Text) : Option Float :=
  if t.any isAlphabetic then none
  else match Decimal.readFloat? t with
    | some x => if x.isFinite then some x else none
    | none => none

/-- The truth value that the text spells, in any mixture of cases. -/
def readBoolean? (t : Text) : Option Bool :=
  if t.map Char.toLower = "true".toList then some true
  else if t.map Char.toLower = "false".toList then some false
  else none

/-- The value that an unquoted text without brackets stands for. -/
def scalarValue (t : Text) : MetadataValue :=
  match readInteger? t with
  | some n => .integer n
  | none =>
    match readNumber? t with
    | some x => .number x
    | none =>
      match readBoolean? t with
      | some b => .boolean b
      | none => .text t

/-- Reads the value of an entry (`parse_value`). -/
def readValue (key raw : Text) : Except MetadataError MetadataValue :=
  match unquote raw with
  | '[' :: inner =>
    match beforeSuffix? [']'] inner with
    | some items => .ok (.list (listItems items))
    | none => .error (.unterminatedList key)
  | value => .ok (scalarValue value)

/-! ## Lines -/

/-- The key and the value in a line, if the line has an entry. -/
def entryOfLine? (line : Text) : Option (Text × Text) :=
  let line := trim line
  if line.isEmpty || line.head? == some '#' then none
  else (splitOnce ':' line).map fun (key, value) => (trim key, trim value)

/-- Reads the lines of a block from the given line number on, and adds their entries to
`metadata`. -/
def readEntries (number : Nat) (metadata : Metadata) :
    List Text → Except MetadataError Metadata
  | [] => .ok metadata
  | line :: lines =>
    match entryOfLine? line with
    | none => readEntries (number + 1) metadata lines
    | some (key, raw) =>
      if key.isEmpty then .error (.emptyKey number)
      else match readValue key raw with
        | .ok value => readEntries (number + 1) (metadata.insert key value) lines
        | .error e => .error e

/-- Reads a metadata block (`parse_block`). -/
def readBlock (block : Text) : Except MetadataError Metadata :=
  readEntries 1 Metadata.empty (lines block)

end DocumentSearch
