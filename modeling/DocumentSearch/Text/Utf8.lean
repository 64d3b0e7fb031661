import DocumentSearch.Text.Basic

/-!
# Texts as bytes

How a text stands in a file: its characters in UTF-8, one behind the other.

Results:

* `decode?_encode`: the bytes of a text are read as that text.
-/

namespace DocumentSearch.Text

/-- The bytes of a text. -/
def encode (t : Text) : List UInt8 := t.flatMap String.utf8EncodeChar

/-- The text that the bytes spell, if they are UTF-8. -/
def decode? (bytes : List UInt8) : Option Text :=
  bytes.toByteArray.utf8Decode?.map Array.toList

@[simp] theorem decode?_encode (t : Text) : decode? (encode t) = some t := by
  have h : (encode t).toByteArray = t.utf8Encode := rfl
  simp [decode?, h]

end DocumentSearch.Text
