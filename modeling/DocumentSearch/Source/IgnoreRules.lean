import DocumentSearch.Source.PathPattern
import DocumentSearch.Text.WhiteSpace

/-!
# Ignore rules

A file of ignore rules, as the library `ignore` reads it for `load_directory`, has a rule in each
line: a pattern of the paths to ignore or, behind an exclamation mark, to keep. Of several rules for
a path the last one holds.

A pattern with a slash at its beginning or within it is about the path from the directory of the
rules on, and any other one about a name at any depth. A pattern with a slash at its end is for
directories only. Lines that are empty, begin with `#` or hold no valid pattern are passed over.
-/

namespace DocumentSearch

/-- What a rule says about a path. -/
inductive Verdict where
  | ignore
  | keep
deriving DecidableEq, Repr

/-- A rule about paths. -/
structure IgnoreRule where
  pattern : PathPattern
  verdict : Verdict
  onlyDirectories : Bool

namespace IgnoreRule

/-- The line without white space at its end, unless this begins with the last character and a
backslash stands before it. -/
def trimLine (line : Text) : Text :=
  if (Text.beforeSuffix? ['\\', ' '] line).isSome then line else Text.trimEnd line

/-- The rest of a line behind its signs: the verdict, and whether the pattern is about the path as a
whole. A backslash takes the meaning from a sign or a number sign. -/
def splitSigns : Text → Verdict × Bool × Text
  | '\\' :: '!' :: t => (.ignore, false, '!' :: t)
  | '\\' :: '#' :: t => (.ignore, false, '#' :: t)
  | '!' :: '/' :: t => (.keep, true, t)
  | '!' :: t => (.keep, false, t)
  | '/' :: t => (.ignore, true, t)
  | t => (.ignore, false, t)

/-- Is the pattern for directories only, and what stands before the slash that says so? That slash
may have a backslash before it. -/
def splitSlash (t : Text) : Bool × Text :=
  match Text.beforeSuffix? ['/'] t with
  | some front => (true, (Text.beforeSuffix? ['\\'] front).getD front)
  | none => (false, t)

/-- The pattern for names at any depth, unless it is about whole paths. -/
def anchor (whole : Bool) (t : Text) : Text :=
  if whole || t.contains '/' || t = ['*', '*'] then t else ['*', '*', '/'] ++ t

/-- The pattern with a step more, if it ends with any steps, so that it is about what a directory
holds and not about the directory. -/
def within (t : Text) : Text :=
  if (Text.beforeSuffix? ['/', '*', '*'] t).isSome then t ++ ['/', '*'] else t

/-- The rule in a line. -/
def ofLine? (line : Text) : Option IgnoreRule :=
  let line := trimLine line
  if line.isEmpty || line.head? = some '#' then none
  else
    let (verdict, whole, rest) := splitSigns line
    let (onlyDirectories, rest) := splitSlash rest
    (PathPattern.ofText? (within (anchor whole rest))).map fun pattern =>
      { pattern, verdict, onlyDirectories }

/-- Is the rule about the path? -/
def isAbout (rule : IgnoreRule) (path : Text) (isDirectory : Bool) : Bool :=
  (isDirectory || !rule.onlyDirectories) && rule.pattern.isMatch path

end IgnoreRule

/-- The rules of a file, in order. -/
abbrev IgnoreRules := List IgnoreRule

namespace IgnoreRules

/-- The lines of a file of rules, without line breaks: a line feed, and a carriage return before
it. -/
def splitLines : List UInt8 → List (List UInt8)
  | [] => []
  | b :: t =>
    if b = 0x0A then [] :: splitLines t
    else if b = 0x0D && t.head? = some 0x0A then splitLines t
    else match splitLines t with
      | [] => [[b]]
      | line :: lines => (b :: line) :: lines

/-- The lines that can be read: all that stand before the first one that is not UTF-8. -/
def readLines : List (List UInt8) → List Text
  | [] => []
  | line :: lines =>
    match Text.decode? line with
    | some t => t :: readLines lines
    | none => []

/-- The lines without byte order marks at the beginning of the first one. -/
def dropMarks : List Text → List Text
  | [] => []
  | line :: lines => line.dropWhile (· == '\ufeff') :: lines

/-- The rules in the bytes of a file. -/
def ofBytes (bytes : List UInt8) : IgnoreRules :=
  (dropMarks (readLines (splitLines bytes))).filterMap IgnoreRule.ofLine?

/-- What the rules say about a path: the verdict of the last rule about it. -/
def verdict? (rules : IgnoreRules) (path : Text) (isDirectory : Bool) : Option Verdict :=
  (rules.reverse.find? (·.isAbout path isDirectory)).map IgnoreRule.verdict

end IgnoreRules

end DocumentSearch
