import DocumentSearch.Proofs.Query.Parser

/-!
# How deep the readers call each other

Terms are read inside expressions and expressions inside terms, and every call that is not finished
takes room on the stack. Only groups and negations that open a term let the calls grow deeper, and
they are counted while they are open; the tails of an expression are read one after the other by the
call that reads the expression. So there is a number of calls that is enough for all queries.

The parser is written down here once more, with a budget of calls inside each other: a call of the
reader of terms or of expressions takes one unit, and what it calls has what is left.

Results:

* `readings_take`: how deep the calls of a reader can be, from what is open already.
* `ofTokensWithin_eq`: a budget of 258 calls is enough for every list of tokens, and no smaller one
  is.
-/

namespace DocumentSearch

/-! ## Computations with a budget -/

/-- A computation that has a budget of calls inside each other. It gives nothing if it runs out of
the budget. -/
abbrev Budgeted := ReaderT Nat (ExceptT QueryError Option)

/-- The answer within the budget, if there is one. -/
def Budgeted.answer? {α : Type} (x : Budgeted α) (budget : Nat) : Option (Except QueryError α) :=
  (x.run budget).run

/-- A call takes one unit and leaves the others to its body. -/
def Budgeted.call {α : Type} (body : Budgeted α) : Budgeted α
  | 0 => ExceptT.mk none
  | budget + 1 => body budget

namespace Budgeted

variable {α β : Type}

@[simp] theorem answer?_call_zero (body : Budgeted α) : body.call.answer? 0 = none := rfl

@[simp] theorem answer?_call_succ (body : Budgeted α) (budget : Nat) :
    body.call.answer? (budget + 1) = body.answer? budget := rfl

theorem answer?_bind (x : Budgeted α) (f : α → Budgeted β) (budget : Nat) :
    (x >>= f).answer? budget = match x.answer? budget with
      | none => none
      | some (.error e) => some (.error e)
      | some (.ok a) => (f a).answer? budget := by
  show (x.answer? budget).bind _ = _
  rcases x.answer? budget with _ | _ | _ <;> rfl

theorem answer?_bind_eq_none {x : Budgeted α} {budget : Nat} (h : x.answer? budget = none)
    (f : α → Budgeted β) : (x >>= f).answer? budget = none := by
  rw [answer?_bind, h]

end Budgeted

/-! ## The parser with a budget -/

namespace Reading

variable {bound : Nat}

theorem fewer_before (rest : List Token) : rest.length < rest.length + 1 := Nat.lt_succ_self _

/-- What was read right before the tokens `rest`. -/
def before (query : Query) (height : Nat) (rest : List Token) : Reading (rest.length + 1) :=
  ⟨query, height, rest, fewer_before rest⟩

theorem fewer_weaken (r : Reading bound) : r.rest.length < bound + 1 := Nat.lt_succ_of_lt r.fewer

/-- The same with one more token before it. -/
def weaken (r : Reading bound) : Reading (bound + 1) :=
  ⟨r.query, r.height, r.rest, r.fewer_weaken⟩

/-- What was read in the end, from the tokens that `first` was read from. -/
def andThen (first : Reading bound) (all : Reading (first.rest.length + 1)) : Reading bound :=
  ⟨all.query, all.height, all.rest, Nat.lt_of_lt_of_le all.fewer first.fewer⟩

end Reading

mutual

/-- `readTerm`, with a budget. -/
def readTermWithin (size nesting : Nat) (tokens : List Token) : Budgeted (Reading tokens.length) :=
  let position := size - tokens.length
  Budgeted.call <| match tokens with
  | [] => throw .unexpectedEnd
  | .openParen :: rest => do
    if nesting ≥ maxDepth then throw (.tooDeep position)
    let inner ← readExpressionWithin size (nesting + 1) rest
    closeGroup position inner
  | .not :: rest => do
    if nesting ≥ maxDepth then throw (.tooDeep position)
    let inner ← readTermWithin size (nesting + 1) rest
    negate position inner
  | .phrase text :: rest => return .before (.phrase text) 0 rest
  | .field name value :: rest => return .before (.field name value.query) 1 rest
  | .fuzzy term distance :: rest => return .before (.fuzzy term distance) 0 rest
  | .wildcard pattern :: rest => return .before (.wildcard pattern) 0 rest
  | .word value :: rest => return .before (.term value) 0 rest
  | token :: _ => throw (.unexpectedToken token position)
termination_by (tokens.length, 0)

/-- `readExpression`, with a budget. -/
def readExpressionWithin (size nesting : Nat) (tokens : List Token) :
    Budgeted (Reading tokens.length) := Budgeted.call do
  let first ← readTermWithin size nesting tokens
  let all ← readTailsWithin size nesting first.query first.height first.rest
  return first.andThen all
termination_by (tokens.length, 1)
decreasing_by
  · exact Prod.Lex.right _ (by omega)
  · exact Prod.Lex.left _ _ first.fewer

/-- `readTails`, with a budget. It is a loop of the call that reads the expression and takes nothing
from the budget. -/
def readTailsWithin (size nesting : Nat) (left : Query) (height : Nat) (tokens : List Token) :
    Budgeted (Reading (tokens.length + 1)) :=
  let position := size - tokens.length
  match tokens with
  | [] => return .before left height []
  | .closeParen :: rest => return .before left height (.closeParen :: rest)
  | .and :: rest => do
    let right ← readTermWithin size nesting rest
    let height ← deepen (max height right.height) position
    let all ← readTailsWithin size nesting (left.and right.query) height right.rest
    return (right.andThen all).weaken.weaken
  | .or :: rest => do
    let right ← readTermWithin size nesting rest
    let height ← deepen (max height right.height) position
    let all ← readTailsWithin size nesting (left.or right.query) height right.rest
    return (right.andThen all).weaken.weaken
  | .not :: rest =>
    if startsTerm rest then do
      let right ← readTermWithin size nesting rest
      let negated ← deepen right.height position
      let height ← deepen (max height negated) position
      let all ← readTailsWithin size nesting (left.and right.query.not) height right.rest
      return (right.andThen all).weaken.weaken
    else do
      let height ← deepen height position
      let all ← readTailsWithin size nesting left.not height rest
      return all.weaken
  | token :: rest => do
    let right ← readTermWithin size nesting (token :: rest)
    let height ← deepen (max height right.height) position
    let all ← readTailsWithin size nesting (left.and right.query) height right.rest
    return (right.andThen all).weaken
termination_by (tokens.length, 1)
decreasing_by
  all_goals first
    | exact Prod.Lex.right _ (by omega)
    | (apply Prod.Lex.left
       first | have := right.fewer | skip
       simp only [List.length_cons] at *
       omega)

end

/-- `Query.ofTokens`, with a budget. -/
def Query.ofTokensWithin (tokens : List Token) : Budgeted Query := do
  let all ← readExpressionWithin tokens.length 0 tokens
  match all.rest with
  | [] => return all.query
  | token :: rest => throw (.unexpectedToken token (tokens.length - (rest.length + 1)))

/-! ## Calls that are needed -/

/-- The computation gives the answer iff the budget covers the calls inside each other that it
makes, and these are `bound` at most. -/
def Takes {α : Type} (bound : Nat) (x : Budgeted α) (answer : Except QueryError α) : Prop :=
  ∃ depth ≤ bound, ∀ budget, x.answer? budget = if depth ≤ budget then some answer else none

namespace Takes

variable {α β : Type} {bound bound' : Nat} {x : Budgeted α} {answer : Except QueryError α}

theorem mono (h : Takes bound x answer) (hle : bound ≤ bound') : Takes bound' x answer := by
  obtain ⟨depth, hdepth, hx⟩ := h
  exact ⟨depth, Nat.le_trans hdepth hle, hx⟩

theorem lift (bound : Nat) (answer : Except QueryError α) : Takes bound (liftM answer) answer :=
  ⟨0, Nat.zero_le _, fun _ => rfl⟩

theorem ok (bound : Nat) (a : α) : Takes bound (pure a) (.ok a) := lift bound (.ok a)

theorem error (bound : Nat) (e : QueryError) : Takes bound (throw e : Budgeted α) (.error e) :=
  lift bound (.error e)

theorem call (h : Takes bound x answer) : Takes (bound + 1) x.call answer := by
  obtain ⟨depth, hdepth, hx⟩ := h
  refine ⟨depth + 1, by omega, fun budget => ?_⟩
  cases budget with
  | zero => rfl
  | succ budget =>
    rw [Budgeted.answer?_call_succ, hx]
    simp only [Nat.add_le_add_iff_right]

theorem bind {f : α → Budgeted β} {g : α → Except QueryError β} (h : Takes bound x answer)
    (hf : ∀ a, answer = .ok a → Takes bound (f a) (g a)) :
    Takes bound (x >>= f) (answer >>= g) := by
  obtain ⟨depth, hdepth, hx⟩ := h
  cases answer with
  | error e =>
    refine ⟨depth, hdepth, fun budget => ?_⟩
    rw [Budgeted.answer?_bind, hx]
    by_cases hle : depth ≤ budget
    · rw [if_pos hle, if_pos hle]
      rfl
    · rw [if_neg hle, if_neg hle]
  | ok a =>
    obtain ⟨depth', hdepth', hfa⟩ := hf a rfl
    refine ⟨max depth depth', by omega, fun budget => ?_⟩
    rw [Budgeted.answer?_bind, hx]
    by_cases hle : depth ≤ budget
    · rw [if_pos hle]
      simp only [hfa, Nat.max_le, hle, true_and]
      rfl
    · rw [if_neg hle, if_neg (by omega)]

end Takes

/-- A reader makes two calls for every group or negation that can still be opened, and one call, or
two, for what is in the last of them. The tails of an expression are no deeper than its first
term. -/
theorem readings_take (size : Nat) :
    (∀ nesting tokens, Takes (2 * (maxDepth - nesting) + 1) (readTermWithin size nesting tokens)
      (readTerm size nesting tokens)) ∧
    (∀ nesting tokens, Takes (2 * (maxDepth - nesting) + 2)
      (readExpressionWithin size nesting tokens) (readExpression size nesting tokens)) ∧
    (∀ nesting left height tokens, Takes (2 * (maxDepth - nesting) + 1)
      (readTailsWithin size nesting left height tokens)
      (readTails size nesting left height tokens)) := by
  apply readTerm.mutual_induct size
  case case1 =>
    intro nesting
    rw [readTermWithin, readTerm]
    exact (Takes.error _ _).call
  case case2 | case4 =>
    intro nesting rest hn _
    rw [readTermWithin, readTerm, if_pos hn, if_pos hn]
    exact ((Takes.error _ _).bind fun _ h => by cases h).call
  case case3 | case5 =>
    intro nesting rest hn ih
    rw [readTermWithin, readTerm, if_neg hn, if_neg hn]
    -- one more group or negation is open in what this call calls, so one less can be opened there
    exact (ih.bind fun inner _ => .lift _ _).call.mono (by omega)
  case case6 | case9 | case10 =>
    intro nesting _ rest
    rw [readTermWithin, readTerm]
    exact (Takes.ok _ _).call
  case case7 | case8 =>
    intro nesting _ _ rest
    rw [readTermWithin, readTerm]
    exact (Takes.ok _ _).call
  case case11 =>
    intro nesting token rest hopen hnot hphrase hfield hfuzzy hwildcard hword
    rw [readTermWithin.eq_9 _ _ _ _ hopen hnot hphrase hfield hfuzzy hwildcard hword,
      readTerm.eq_9 _ _ _ _ hopen hnot hphrase hfield hfuzzy hwildcard hword]
    exact (Takes.error _ _).call
  case case12 =>
    intro nesting tokens ihTerm ihTails
    rw [readExpressionWithin, readExpression]
    refine (ihTerm.bind fun first _ => ?_).call
    exact (ihTails first).bind fun all _ => .ok _ _
  case case13 =>
    intro nesting left height
    rw [readTailsWithin, readTails]
    exact .ok _ _
  case case14 =>
    intro nesting left height rest
    rw [readTailsWithin, readTails]
    exact .ok _ _
  case case15 | case16 =>
    intro nesting left height rest ihTerm ihTails
    rw [readTailsWithin, readTails]
    refine ihTerm.bind fun right _ => (Takes.lift _ _).bind fun height _ => ?_
    exact (ihTails right height).bind fun all _ => .ok _ _
  case case17 =>
    intro nesting left height rest hstart ihTerm ihTails
    rw [readTailsWithin, readTails, if_pos hstart, if_pos hstart]
    refine ihTerm.bind fun right _ => (Takes.lift _ _).bind fun negated _ => ?_
    refine (Takes.lift _ _).bind fun height _ => ?_
    exact (ihTails right height).bind fun all _ => .ok _ _
  case case18 =>
    intro nesting left height rest hstart ihTails
    rw [readTailsWithin, readTails, if_neg hstart, if_neg hstart]
    refine (Takes.lift _ _).bind fun height _ => ?_
    exact (ihTails height).bind fun all _ => .ok _ _
  case case19 =>
    intro nesting left height token rest hclose hand hor hnot ihTerm ihTails
    rw [readTailsWithin.eq_6 _ _ _ _ _ _ hclose hand hor hnot,
      readTails.eq_6 _ _ _ _ _ _ hclose hand hor hnot]
    refine ihTerm.bind fun right _ => (Takes.lift _ _).bind fun height _ => ?_
    exact (ihTails right height).bind fun all _ => .ok _ _

theorem takes_ofTokensWithin (ts : List Token) :
    Takes (2 * maxDepth + 2) (Query.ofTokensWithin ts) (Query.ofTokens ts) := by
  refine ((readings_take ts.length).2.1 0 ts).bind fun all _ => ?_
  obtain ⟨query, height, rest, fewer⟩ := all
  cases rest with
  | nil => exact .ok _ _
  | cons token rest => exact .error _ _

/-! ## Calls that cannot be spared -/

/-- Every group that is opened needs two calls, and the last one needs two more inside. -/
theorem answer?_openParens_eq_none (size : Nat) {nesting n budget : Nat}
    (hn : nesting + n ≤ maxDepth) (hbudget : budget < 2 * n + 2) :
    (readExpressionWithin size nesting (List.replicate (n + 1) .openParen)).answer? budget =
      none := by
  induction n generalizing nesting budget with
  | zero =>
    rw [readExpressionWithin]
    cases budget with
    | zero => exact Budgeted.answer?_call_zero _
    | succ budget =>
      obtain rfl : budget = 0 := by omega
      apply Budgeted.answer?_bind_eq_none
      rw [List.replicate_succ, readTermWithin]
      exact Budgeted.answer?_call_zero _
  | succ n ih =>
    rw [readExpressionWithin]
    cases budget with
    | zero => exact Budgeted.answer?_call_zero _
    | succ budget =>
      apply Budgeted.answer?_bind_eq_none
      rw [List.replicate_succ, readTermWithin, if_neg (by omega)]
      cases budget with
      | zero => exact Budgeted.answer?_call_zero _
      | succ budget =>
        -- the group is open now, and two calls of the budget are gone
        apply Budgeted.answer?_bind_eq_none
        exact ih (by omega) (by omega)

/-- With a budget of 258 calls inside each other the parser gives the answer that it gives without a
budget, for every list of tokens: every run makes some number of calls inside each other, which is
258 at most, and gives its answer iff the budget covers them. There are runs that make 258. -/
theorem ofTokensWithin_eq :
    (∀ ts : List Token,
      (Query.ofTokensWithin ts).answer? 258 = some (Query.ofTokens ts) ∧
      ∃ depth ≤ 258, ∀ budget, (Query.ofTokensWithin ts).answer? budget =
        if depth ≤ budget then some (Query.ofTokens ts) else none) ∧
    (Query.ofTokensWithin (List.replicate 129 .openParen)).answer? 257 = none := by
  refine ⟨fun ts => ?_, ?_⟩
  · obtain ⟨depth, hdepth, hanswer⟩ := takes_ofTokensWithin ts
    have hle : depth ≤ 258 := hdepth
    exact ⟨by rw [hanswer, if_pos hle], depth, hle, hanswer⟩
  · apply Budgeted.answer?_bind_eq_none
    exact answer?_openParens_eq_none _ (n := maxDepth) (by decide) (by decide)

end DocumentSearch
