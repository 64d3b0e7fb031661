import DocumentSearch.Metadata.Value

/-!
# Reading time

The reading time of a document in minutes, which its metadata gives under the key `minute`
(`reading_time` and `format_reading_time` of `metadata`).
-/

namespace DocumentSearch

/-- Minutes are written without an exponent, and whole minutes without a point. -/
def minuteNotation : Decimal.Notation where
  positional _ := true
  pointZero := false
  plusSign := false
  tie := .up

/-- The reading time in minutes, if it is given and positive (`reading_time`). -/
def Metadata.readingTime? (m : Metadata) : Option Float :=
  ((m.get? "minute".toList).bind MetadataValue.float?).filter (· > 0)

/-- What is shown for a reading time, if it is positive (`format_reading_time`). -/
def readingTimeLabel? (minutes : Option Float) : Option Text :=
  (minutes.filter (· > 0)).map fun m => minuteNotation.text m ++ " min read".toList

end DocumentSearch
