import DocumentSearch.Data.Toml.Scalar
import DocumentSearch.Data.Toml.Tree

/-!
# Reading TOML

A document is a list of lines, each of which holds a header, a key with its value, or nothing; a
comment can end every line. Values are quoted texts, scalars, lists and inline tables, and the last
two can reach over several lines and be nested up to a limit.

The readers count their steps down. Every second step of a reader takes a character, so that
`2 * length + 2` steps are enough for a text of that length.
-/

namespace DocumentSearch.Toml

/-! ## Blanks and keys -/

/-- The text without blanks at its beginning. -/
def skipBlanks (t : Text) : Text := t.dropWhile fun c => c == ' ' || c == '\t'

/-- The text behind a line break. -/
def afterBreak? : Text → Option Text
  | '\n' :: t => some t
  | '\r' :: '\n' :: t => some t
  | _ => none

/-- The text from the end of a comment on, if it begins with one. -/
def skipComment : Text → Text
  | '#' :: t => t.dropWhile isPlain
  | t => t

/-- The text behind blanks, comments and line breaks. -/
def skipLines : Nat → Text → Text
  | 0, t => t
  | steps + 1, t =>
    match afterBreak? (skipComment (skipBlanks t)) with
    | some rest => skipLines steps rest
    | none => skipBlanks t

/-- Can the character stand in a key without quotes? -/
def isBareKeyChar (c : Char) : Bool :=
  c.isDigit || ('a' ≤ c && c ≤ 'z') || ('A' ≤ c && c ≤ 'Z') || c == '-' || c == '_'

/-- One part of a key. -/
def simpleKey? (t : Text) : Option (Text × Text) :=
  match quotedLine? t with
  | some r => some r
  | none =>
    let key := t.takeWhile isBareKeyChar
    if key.isEmpty then none else some (key, t.drop key.length)

/-- A key: its parts in order, with points between them. -/
def key? : Nat → Text → Option (List Text × Text)
  | 0, _ => none
  | steps + 1, t => do
    let (part, rest) ← simpleKey? (skipBlanks t)
    match skipBlanks rest with
    | '.' :: rest => do
      let (parts, rest) ← key? steps rest
      return (part :: parts, rest)
    | rest => return ([part], rest)

/-! ## Values -/

/-- Does the character end an unquoted word? -/
def endsWord (c : Char) : Bool :=
  c == ' ' || c == '\t' || c == '\r' || c == '\n' || c == ',' || c == ']' || c == '}' || c == '#'

/-- An unquoted word. A date can have its time behind a blank. -/
def word (t : Text) : Text × Text :=
  let first := t.takeWhile (!endsWord ·)
  let rest := t.drop first.length
  match afterDate? first, rest with
  | some [], ' ' :: c :: more =>
    if c.isDigit then
      let time := (c :: more).takeWhile (!endsWord ·)
      (first ++ ' ' :: time, (c :: more).drop time.length)
    else (first, rest)
  | _, _ => (first, rest)

/-- How deep lists and inline tables can be nested. -/
def maxNesting : Nat := 80

mutual

/-- A value, in which lists and inline tables are nested at most `depth` deep. -/
def value? : Nat → Nat → Text → Option (Data × Text)
  | 0, _, _ => none
  | steps + 1, depth, t =>
    match t, depth with
    | '"' :: _, _ | '\'' :: _, _ => (quoted? t).map fun (text, rest) => (.text text, rest)
    | '[' :: rest, depth + 1 =>
      (items? steps depth rest).map fun (items, rest) => (.list items, rest)
    | '\x7b' :: rest, depth + 1 =>
      (members? steps depth [] rest).map fun (entries, rest) => (.table (entriesData entries), rest)
    | t, _ =>
      let (w, rest) := word t
      (scalar? w).map fun d => (d, rest)

/-- The items of a list, behind its bracket or a comma. -/
def items? : Nat → Nat → Text → Option (List Data × Text)
  | 0, _, _ => none
  | steps + 1, depth, t =>
    match skipLines t.length t with
    | ']' :: rest => some ([], rest)
    | t => do
      let (d, rest) ← value? steps depth t
      match skipLines rest.length rest with
      | ',' :: rest => do
        let (items, rest) ← items? steps depth rest
        return (d :: items, rest)
      | ']' :: rest => return ([d], rest)
      | _ => none

/-- The entries of an inline table, behind its brace or a comma. -/
def members? : Nat → Nat → Entries → Text → Option (Entries × Text)
  | 0, _, _, _ => none
  | steps + 1, depth, entries, t =>
    match skipLines t.length t with
    | '\x7d' :: rest => some (entries, rest)
    | t => do
      let (entries, rest) ← keyValue? steps depth entries t
      match skipLines rest.length rest with
      | ',' :: rest => members? steps depth entries rest
      | '\x7d' :: rest => return (entries, rest)
      | _ => none

/-- A key with its value, put into a table. -/
def keyValue? : Nat → Nat → Entries → Text → Option (Entries × Text)
  | 0, _, _, _ => none
  | steps + 1, depth, entries, t => do
    let (parts, rest) ← key? (t.length + 1) t
    match rest with
    | '=' :: rest => do
      let (d, rest) ← value? steps depth (skipBlanks rest)
      let entries ← putValue true (parts.getLastD []) d parts.dropLast entries
      return (entries, rest)
    | _ => none

end

/-! ## Documents -/

/-- What stands behind a header. -/
structure Opened where
  /-- The document so far, in which the table is open. -/
  entries : Entries
  /-- The path of the table. -/
  path : List Text
  rest : Text

/-- A header in double brackets or in single ones, from behind its first bracket on. -/
def header? (entries : Entries) : Text → Option Opened
  | '[' :: t => do
    let (parts, rest) ← key? (t.length + 1) t
    match rest with
    | ']' :: ']' :: rest => do
      let entries ← changeAt (openElement (parts.getLastD [])) parts.dropLast entries
      return ⟨entries, parts, rest⟩
    | _ => none
  | t => do
    let (parts, rest) ← key? (t.length + 1) t
    match rest with
    | ']' :: rest => do
      let entries ← changeAt (openTable (parts.getLastD [])) parts.dropLast entries
      return ⟨entries, parts, rest⟩
    | _ => none

/-- A key with its value, put into the table at a path. -/
def keyValueAt? (path : List Text) (entries : Entries) (t : Text) : Option (Entries × Text) := do
  let (parts, rest) ← key? (t.length + 1) t
  match rest with
  | '=' :: rest => do
    let rest := skipBlanks rest
    let (d, rest) ← value? (2 * rest.length + 2) maxNesting rest
    let put := putValue true (parts.getLastD []) d parts.dropLast
    return (← changeAt put path entries, rest)
  | _ => none

/-- The lines of a document, added to the entries. Keys belong to the table at the path. -/
def lines? : Nat → List Text → Entries → Text → Option Entries
  | 0, _, _, _ => none
  | steps + 1, path, entries, t => do
    let (path, entries, rest) ← match skipBlanks t with
      | '[' :: t => do
        let opened ← header? entries t
        pure (opened.path, opened.entries, opened.rest)
      | [] => some (path, entries, [])
      | c :: t =>
        if c == '#' || c == '\n' || c == '\r' then some (path, entries, c :: t)
        else do
          let (entries, rest) ← keyValueAt? path entries (c :: t)
          pure (path, entries, rest)
    match skipComment (skipBlanks rest) with
    | [] => return entries
    | rest => do lines? steps path entries (← afterBreak? rest)

/-- The text without a byte order mark. -/
def dropMark : Text → Text
  | '\ufeff' :: t => t
  | t => t

/-- The table that a document spells. -/
def read? (t : Text) : Option Data :=
  let t := dropMark t
  (lines? (t.length + 1) [] [] t).map fun entries => .table (entriesData entries)

end DocumentSearch.Toml
