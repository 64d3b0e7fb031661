import DocumentSearch.Text.Utf8

/-!
# Patterns of paths

In a pattern of paths, which the rules to ignore are made of, `*` stands for any run of bytes
without a slash, `?` for one byte other than a slash, `[…]` for one byte of a class, `{…,…}` for one
of several patterns, and `**` as a whole step for any number of steps. A backslash takes the meaning
from the character behind it, and every other character stands for itself. A pattern is about all of
a path, whose characters count as their bytes in UTF-8.
-/

namespace DocumentSearch

/-- What a part of a pattern stands for. -/
inductive PathPiece where
  /-- The bytes of the character. -/
  | literal (c : Char)
  /-- One byte other than a slash. -/
  | one
  /-- Any run of bytes other than slashes. -/
  | run
  /-- Any steps in front, with their slashes. -/
  | ahead
  /-- A slash, or two slashes with any steps between them. -/
  | between
  /-- A slash and what is behind it. -/
  | behind
  /-- One byte in the ranges or, if `negated`, out of them. -/
  | oneOf (negated : Bool) (ranges : List (UInt8 × UInt8))
  /-- What one of the branches stands for; nothing, if there is no branch. -/
  | anyOf (branches : List (List PathPiece))

namespace PathPiece

/-! ## Matching -/

/-- The byte that stands between two steps of a path. -/
def slash : UInt8 := 0x2F

/-- All that stands behind a slash. -/
def afterSlashes : List UInt8 → List (List UInt8)
  | [] => []
  | b :: t => if b = slash then t :: afterSlashes t else afterSlashes t

/-- What can remain behind any bytes. -/
def afterAny : List UInt8 → List (List UInt8)
  | [] => [[]]
  | b :: t => (b :: t) :: afterAny t

/-- What can remain behind a run of bytes without a slash. -/
def afterRuns : List UInt8 → List (List UInt8)
  | [] => [[]]
  | b :: t => if b = slash then [b :: t] else (b :: t) :: afterRuns t

/-- Is the byte in one of the ranges? -/
def isInRanges (ranges : List (UInt8 × UInt8)) (b : UInt8) : Bool :=
  ranges.any fun (low, high) => low ≤ b && b ≤ high

mutual

/-- What can remain of the bytes behind what the piece stands for. -/
def rests : PathPiece → List UInt8 → List (List UInt8)
  | .literal c, s =>
    let front := Text.encode [c]
    if front.isPrefixOf s then [s.drop front.length] else []
  | .one, b :: t => if b = slash then [] else [t]
  | .one, [] => []
  | .run, s => afterRuns s
  | .ahead, s => s :: afterSlashes s
  | .between, b :: t => if b = slash then t :: afterSlashes t else []
  | .between, [] => []
  | .behind, b :: t => if b = slash then afterAny t else []
  | .behind, [] => []
  | .oneOf negated ranges, b :: t => if isInRanges ranges b != negated then [t] else []
  | .oneOf _ _, [] => []
  | .anyOf [], s => [s]
  | .anyOf (branch :: branches), s => restsOfAll branch [s] ++ restsOfAny branches s

/-- What can remain behind what all the pieces stand for, one behind the other. -/
def restsOfAll : List PathPiece → List (List UInt8) → List (List UInt8)
  | [], ss => ss
  | piece :: pieces, ss => restsOfAll pieces (ss.flatMap piece.rests).eraseDups

/-- What can remain behind what one of the branches stands for. -/
def restsOfAny : List (List PathPiece) → List UInt8 → List (List UInt8)
  | [], _ => []
  | branch :: branches, s => restsOfAll branch [s] ++ restsOfAny branches s

end

/-- Is this a pattern for all paths? -/
def isForAll : List PathPiece → Bool
  | [.ahead] => true
  | _ => false

/-- Does a pattern stand for the path? -/
def matchesPath (pieces : List PathPiece) (path : Text) : Bool :=
  isForAll pieces || (restsOfAll pieces [Text.encode path]).contains []

/-! ## Reading -/

/-- Does the piece stand for nothing? -/
def isVoid : PathPiece → Bool
  | .anyOf [] => true
  | _ => false

/-- The ranges of bytes that a range of characters stands for: the bytes of the first and of the
last character, and all bytes between the last one of the first character and the first one of the
last. -/
def byteRanges (low high : Char) : List (UInt8 × UInt8) :=
  let single := fun b : UInt8 => (b, b)
  let front := Text.encode [low]
  let back := Text.encode [high]
  if low = high then front.map single
  else front.dropLast.map single ++ [(front.getLastD 0, back.headD 0)] ++ back.tail.map single

/-- Is a class negated, and what stands behind the sign of that? -/
def splitNegation (t : Text) : Bool × Text :=
  if t.head? = some '!' || t.head? = some '^' then (true, t.tail) else (false, t)

theorem length_splitNegation_le (t : Text) : (splitNegation t).2.length ≤ t.length := by
  unfold splitNegation
  split <;> simp

/-- What comes of reading a class. -/
inductive ClassReading where
  /-- There is no bracket at its end. -/
  | isOpen
  /-- A range ends before it starts. -/
  | isBad
  | closed (ranges : List (Char × Char)) (rest : Text)

/-- Moves the end of the last range, which is the first one of the list. -/
def extend (high : Char) : List (Char × Char) → Option (List (Char × Char))
  | [] => none
  | (low, _) :: ranges => if high < low then none else some ((low, high) :: ranges)

/-- Reads a class behind its opening bracket. The ranges so far are in `ranges`, and `dash` says
that a dash was read that may stand for a range. A bracket or a dash that comes first stands for
itself. -/
def readClass (ranges : List (Char × Char)) (dash : Bool) : Text → ClassReading
  | [] => .isOpen
  | c :: t =>
    if c = ']' && !ranges.isEmpty then
      .closed (if dash then ('-', '-') :: ranges else ranges) t
    else if dash then
      match extend c ranges with
      | some ranges => readClass ranges false t
      | none => .isBad
    else if c = '-' && !ranges.isEmpty then readClass ranges true t
    else readClass ((c, c) :: ranges) false t

theorem length_lt_of_readClass {ranges ranges' : List (Char × Char)} {dash : Bool} {t rest : Text}
    (h : readClass ranges dash t = .closed ranges' rest) : rest.length < t.length := by
  induction t generalizing ranges dash with
  | nil => simp [readClass] at h
  | cons c t ih =>
    simp only [readClass] at h
    split at h
    · cases h
      simp
    · split at h
      · split at h
        · exact Nat.lt_succ_of_lt (ih h)
        · simp at h
      · split at h <;> exact Nat.lt_succ_of_lt (ih h)

/-- What was read of a pattern. -/
structure Reading where
  /-- The pieces of the innermost branch, the last one first. -/
  branch : List PathPiece := []
  /-- For every open brace the branch that it stands in and the branches behind it that are
  complete. -/
  outer : List (List PathPiece × List (List PathPiece)) := []
  /-- The character that was read last. -/
  before : Option Char := none
  /-- Do brackets stand for themselves from here on? -/
  plainBrackets : Bool := false

namespace Reading

/-- The reading after one more piece, which the character ends. -/
def push (r : Reading) (piece : PathPiece) (c : Char) : Reading :=
  { r with branch := piece :: r.branch, before := some c }

/-- The reading behind an opening brace. -/
def openBrace (r : Reading) : Reading :=
  { r with branch := [], outer := (r.branch, []) :: r.outer, before := some '\x7b' }

/-- The reading behind a comma, which parts branches within braces. -/
def comma (r : Reading) : Reading :=
  match r.outer with
  | [] => r.push (.literal ',') ','
  | (around, done) :: outer =>
    { r with branch := [], outer := (around, done ++ [r.branch]) :: outer, before := some ',' }

/-- The reading behind a closing brace. Branches that stand for nothing are dropped. -/
def closeBrace? (r : Reading) : Option Reading :=
  match r.outer with
  | [] => none
  | (around, done) :: outer =>
    let branches := (done ++ [r.branch]).filter fun branch => !branch.all isVoid
    some { r with
      branch := .anyOf (branches.map List.reverse) :: around
      outer := outer
      before := some '\x7d' }

/-- Can two stars stand for steps here, where a branch has begun? -/
def isAtStep (r : Reading) : Bool :=
  r.before == some '/' ||
    (!r.outer.isEmpty && (r.before == some ',' || r.before == some '\x7b'))

/-- The reading with the piece in the place of the slash before it. Steps that stand there already
take it in. -/
def joinSteps (r : Reading) (piece : PathPiece) (c : Char) : Reading :=
  let branch := match r.branch with
    | .ahead :: others => .ahead :: others
    | .behind :: others => .behind :: others
    | _ :: others => piece :: others
    | [] => [piece]
  { r with branch := branch, before := some c }

/-- The reading behind two stars that do not stand for steps. -/
def twoRuns (r : Reading) : Reading := (r.push .run '*').push .run '*'

/-- The reading behind two stars at the end of a branch. -/
def starsAtEnd (r : Reading) : Reading := r.joinSteps .behind '*'

/-- The reading behind two stars and a slash. -/
def starsAndSlash (r : Reading) : Reading :=
  if r.branch.isEmpty then r.push .ahead '/'
  else if r.isAtStep then r.joinSteps .between '/'
  else r.twoRuns.push (.literal '/') '/'

/-- The reading behind two stars, where what is next is no slash. -/
def stars (r : Reading) (next : Option Char) : Reading :=
  if r.branch.isEmpty then if next.isNone then r.push .ahead '*' else r.twoRuns
  else if r.isAtStep && (next.isNone ||
      (!r.outer.isEmpty && (next == some ',' || next == some '\x7d'))) then r.starsAtEnd
  else r.twoRuns

end Reading

/-- The pieces of a pattern behind what was read. There are none if a brace or a range is wrong or
the pattern ends with a backslash. -/
def readFrom (r : Reading) : Text → Option (List PathPiece)
  | [] => if r.outer.isEmpty then some r.branch.reverse else none
  | '*' :: '*' :: '/' :: t => readFrom r.starsAndSlash t
  | '*' :: '*' :: t => readFrom (r.stars t.head?) t
  | '*' :: t => readFrom (r.push .run '*') t
  | '?' :: t => readFrom (r.push .one '?') t
  | '[' :: t =>
    if r.plainBrackets then readFrom (r.push (.literal '[') '[') t
    else
      match _ : readClass [] false (splitNegation t).2 with
      | .isOpen => readFrom { r.push (.literal '[') '[' with plainBrackets := true } t
      | .isBad => none
      | .closed ranges rest =>
        let bytes := ranges.flatMap fun (low, high) => byteRanges low high
        readFrom (r.push (.oneOf (splitNegation t).1 bytes) ']') rest
  | '\x7b' :: t => readFrom r.openBrace t
  | '\x7d' :: t =>
    match r.closeBrace? with
    | some r => readFrom r t
    | none => none
  | ',' :: t => readFrom r.comma t
  | ['\\'] => none
  | '\\' :: c :: t => readFrom (r.push (.literal c) c) t
  | c :: t => readFrom (r.push (.literal c) c) t
termination_by t => t.length
decreasing_by
  all_goals simp only [List.length_cons]
  all_goals try omega
  have := length_lt_of_readClass ‹_›
  have := length_splitNegation_le t
  omega

end PathPiece

/-- A pattern of paths. -/
structure PathPattern where
  pieces : List PathPiece

/-- Reads a pattern. -/
def PathPattern.ofText? (t : Text) : Option PathPattern := (PathPiece.readFrom {} t).map .mk

/-- Does the pattern stand for the path? -/
def PathPattern.isMatch (pattern : PathPattern) (path : Text) : Bool :=
  PathPiece.matchesPath pattern.pieces path

end DocumentSearch
