import DocumentSearch.Text.Basic

/-!
# Quoted texts in TOML

Basic texts stand between double quotes and know escapes, literal texts stand between single quotes
and are taken as they are. Both can reach over several lines between three quotes, and then the line
break right behind the opening quotes does not count. Every reader starts behind the opening quotes
and returns what it read and the rest.
-/

namespace DocumentSearch.Toml

/-- Can the character stand for itself in a text or a comment of one line? -/
def isPlain (c : Char) : Bool := c == '\t' || (0x20 ≤ c.toNat && c.toNat != 0x7F)

/-- The number that hexadecimal digits of either case spell. -/
def hexValue? (digits : Text) : Option Nat :=
  digits.foldlM (fun n c => do
    let d ←
      if c.isDigit then some (c.toNat - '0'.toNat)
      else if 'a' ≤ c && c ≤ 'f' then some (c.toNat - 'a'.toNat + 10)
      else if 'A' ≤ c && c ≤ 'F' then some (c.toNat - 'A'.toNat + 10)
      else none
    return 16 * n + d) 0

/-- The character whose code point the digits spell. -/
def charOfHex? (digits : Text) : Option Char := do
  let n ← hexValue? digits
  if n.isValidChar then some (Char.ofNat n) else none

/-- The character that a letter behind a backslash stands for. -/
def escaped? : Char → Option Char
  | 'b' => some '\x08'
  | 't' => some '\t'
  | 'n' => some '\n'
  | 'f' => some '\x0c'
  | 'r' => some '\r'
  | 'e' => some '\x1b'
  | '"' => some '"'
  | '\\' => some '\\'
  | _ => none

/-- Puts a character in front of what was read. -/
def consRead (c : Option Char) (r : Option (Text × Text)) : Option (Text × Text) := do
  let c ← c
  let (t, rest) ← r
  return (c :: t, rest)

/-- A basic text of one line. -/
def basic : Text → Option (Text × Text)
  | [] => none
  | '"' :: t => some ([], t)
  | '\\' :: 'x' :: a :: b :: t => consRead (charOfHex? [a, b]) (basic t)
  | '\\' :: 'u' :: a :: b :: c :: d :: t => consRead (charOfHex? [a, b, c, d]) (basic t)
  | '\\' :: 'U' :: a :: b :: c :: d :: e :: f :: g :: h :: t =>
    consRead (charOfHex? [a, b, c, d, e, f, g, h]) (basic t)
  | '\\' :: c :: t => consRead (escaped? c) (basic t)
  | c :: t => if isPlain c && c != '\\' then consRead (some c) (basic t) else none

/-- A literal text of one line. -/
def literal : Text → Option (Text × Text)
  | [] => none
  | '\'' :: t => some ([], t)
  | c :: t => if isPlain c then consRead (some c) (literal t) else none

/-- Does the line end here, blanks passed over? -/
def endsLine (t : Text) : Bool :=
  match t.dropWhile fun c => c == ' ' || c == '\t' with
  | '\n' :: _ => true
  | '\r' :: '\n' :: _ => true
  | _ => false

/-- A basic text of several lines. A backslash at the end of a line takes away the white space
behind it, up to the next other character; `skipping` says that this is going on. -/
def basicLines (skipping : Bool) : Text → Option (Text × Text)
  | [] => none
  | '"' :: '"' :: '"' :: '"' :: '"' :: t => some (['"', '"'], t)
  | '"' :: '"' :: '"' :: '"' :: t => some (['"'], t)
  | '"' :: '"' :: '"' :: t => some ([], t)
  | '\\' :: 'x' :: a :: b :: t => consRead (charOfHex? [a, b]) (basicLines false t)
  | '\\' :: 'u' :: a :: b :: c :: d :: t =>
    consRead (charOfHex? [a, b, c, d]) (basicLines false t)
  | '\\' :: 'U' :: a :: b :: c :: d :: e :: f :: g :: h :: t =>
    consRead (charOfHex? [a, b, c, d, e, f, g, h]) (basicLines false t)
  | '\\' :: c :: t =>
    if endsLine (c :: t) then basicLines true t else consRead (escaped? c) (basicLines false t)
  | '\r' :: '\n' :: t =>
    if skipping then basicLines true t
    else consRead (some '\r') (consRead (some '\n') (basicLines false t))
  | c :: t =>
    if skipping && (c == ' ' || c == '\t' || c == '\n') then basicLines true t
    else if (isPlain c || c == '\n') && c != '\\' then consRead (some c) (basicLines false t)
    else none

/-- A literal text of several lines. -/
def literalLines : Text → Option (Text × Text)
  | [] => none
  | '\'' :: '\'' :: '\'' :: '\'' :: '\'' :: t => some (['\'', '\''], t)
  | '\'' :: '\'' :: '\'' :: '\'' :: t => some (['\''], t)
  | '\'' :: '\'' :: '\'' :: t => some ([], t)
  | '\r' :: '\n' :: t => consRead (some '\r') (consRead (some '\n') (literalLines t))
  | c :: t => if isPlain c || c == '\n' then consRead (some c) (literalLines t) else none

/-- The text without a line break at its beginning. -/
def dropLineBreak : Text → Text
  | '\n' :: t => t
  | '\r' :: '\n' :: t => t
  | t => t

/-- A quoted text of one line, from its opening quote on. -/
def quotedLine? : Text → Option (Text × Text)
  | '"' :: t => basic t
  | '\'' :: t => literal t
  | _ => none

/-- A quoted text, from its opening quotes on. -/
def quoted? : Text → Option (Text × Text)
  | '"' :: '"' :: '"' :: t => basicLines false (dropLineBreak t)
  | '\'' :: '\'' :: '\'' :: t => literalLines (dropLineBreak t)
  | t => quotedLine? t

end DocumentSearch.Toml
