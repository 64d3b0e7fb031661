import DocumentSearch.Text.Basic

/-!
# Texts in JSON

How a text is quoted in JSON, in the form that escapes as little as possible: quotes, backslashes
and control characters.
-/

namespace DocumentSearch.Json

/-- A character inside a quoted text. -/
def quotedChar : Char → Text
  | '"' => ['\\', '"']
  | '\\' => ['\\', '\\']
  | '\x08' => ['\\', 'b']
  | '\x0c' => ['\\', 'f']
  | '\n' => ['\\', 'n']
  | '\r' => ['\\', 'r']
  | '\t' => ['\\', 't']
  | c =>
    if c.toNat < 0x20 then
      ['\\', 'u', '0', '0', Nat.digitChar (c.toNat / 16), Nat.digitChar (c.toNat % 16)]
    else [c]

/-- A quoted text. -/
def quoted (t : Text) : Text := '"' :: t.flatMap quotedChar ++ ['"']

/-- A list of texts. -/
def textList (ts : List Text) : Text := '[' :: [','].intercalate (ts.map quoted) ++ [']']

end DocumentSearch.Json
