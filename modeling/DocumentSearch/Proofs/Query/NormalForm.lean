import DocumentSearch.Proofs.Query.Text
import DocumentSearch.Proofs.Query.Token
import DocumentSearch.Proofs.Search.Evaluation
import Mathlib

/-!
# The text of a query

The text of a query puts every operator with its operands in parentheses and drops the groups. Read
again, it spells the same query with a group around every operator and no other ones. So the text
says of a query all that its evaluation depends on, but what it spells may be higher than the query:
it is read as long as operators, counted twice, and fields stay within the depth limit.

Results:

* `Query.IsParsed.spells_text`: what the text of a query spells.
* `ofText_text`: the text of a query is read back, unless it is nested too deeply.
-/

namespace DocumentSearch

open Text

namespace Query

/-! ## Groups -/

/-- The query without its groups. -/
def ungrouped : Query → Query
  | .group inner => inner.ungrouped
  | .field name inner => .field name inner.ungrouped
  | .unary op operand => .unary op operand.ungrouped
  | .binary op left right => .binary op left.ungrouped right.ungrouped
  | leaf => leaf

/-- The query with a group around every operator and no other groups. -/
def regrouped : Query → Query
  | .group inner => inner.regrouped
  | .unary op operand => .group (.unary op operand.regrouped)
  | .binary op left right => .group (.binary op left.regrouped right.regrouped)
  | leaf => leaf

/-- The height of what the text of the query spells: groups do not count, and an operator counts
twice, for itself and for its parentheses. -/
def spelledHeight : Query → Nat
  | .term _ | .phrase _ | .wildcard _ | .fuzzy _ _ => 0
  | .field _ inner => inner.spelledHeight + 1
  | .group inner => inner.spelledHeight
  | .unary _ operand => operand.spelledHeight + 2
  | .binary _ left right => max left.spelledHeight right.spelledHeight + 2

theorem ungrouped_regrouped (q : Query) : q.regrouped.ungrouped = q.ungrouped := by
  induction q with
  | term _ | phrase _ | wildcard _ | fuzzy _ _ | field _ _ _ => rfl
  | group _ ih => exact ih
  | unary _ _ ih => simp only [regrouped, ungrouped, ih]
  | binary _ _ _ ihLeft ihRight => simp only [regrouped, ungrouped, ihLeft, ihRight]

theorem text_regrouped (q : Query) : q.regrouped.text = q.text := by
  induction q with
  | term _ | phrase _ | wildcard _ | fuzzy _ _ | field _ _ _ => rfl
  | group _ ih => exact ih
  | unary op _ ih => cases op <;> simp only [regrouped, text, ih]
  | binary op _ _ ihLeft ihRight => cases op <;> simp only [regrouped, text, ihLeft, ihRight]

end Query

theorem Evaluator.evaluate_regrouped {α : Type} [Score α] [PatternReader] (e : Evaluator α)
    (q : Query) (d : Document) : e.evaluate q.regrouped d = e.evaluate q d := by
  induction q with
  | term _ | phrase _ | wildcard _ | fuzzy _ _ | field _ _ _ => rfl
  | group _ ih => exact ih
  | unary op _ ih => cases op <;> simp only [Query.regrouped, evaluate, ih]
  | binary op _ _ ihLeft ihRight =>
    cases op <;> simp only [Query.regrouped, evaluate, ihLeft, ihRight]

/-! ## Queries that were read -/

/-- The query has the form of a query that was read: its leaves are tokens that can be read, a
negation has one operand, and the other operators have two. -/
inductive Query.IsParsed : Query → Prop where
  | leaf {token : Token} {q : Query} (h : token.leaf? = some q) (hread : token.IsReadable) :
      IsParsed q
  | group {q : Query} (inner : q.IsParsed) : IsParsed q.group
  | not {q : Query} (operand : q.IsParsed) : IsParsed q.not
  | and {p q : Query} (left : p.IsParsed) (right : q.IsParsed) : IsParsed (p.and q)
  | or {p q : Query} (left : p.IsParsed) (right : q.IsParsed) : IsParsed (p.or q)

/-- The query on the left of the part has the form of a query that was read. -/
def Part.IsParsed : Part → Prop
  | .term | .expression => True
  | .tails left => left.IsParsed

theorem Derives.isParsed {part : Part} {ts : List Token} {q : Query} (h : Derives part ts q)
    (hread : ∀ token ∈ ts, token.IsReadable) (hpart : part.IsParsed) : q.IsParsed := by
  induction h with
  | leaf h => exact .leaf h (hread _ List.mem_cons_self)
  | group _ ih =>
    have hinner := (List.forall_mem_append.1 (List.forall_mem_cons.1 hread).2).1
    exact .group (ih hinner trivial)
  | negation _ ih => exact .not (ih (List.forall_mem_cons.1 hread).2 trivial)
  | expression _ _ ihFirst ihTails =>
    obtain ⟨hfirst, htails⟩ := List.forall_mem_append.1 hread
    exact ihTails htails (ihFirst hfirst trivial)
  | done => exact hpart
  | juxtaposed _ _ _ ihRight ihTails =>
    obtain ⟨hright, htails⟩ := List.forall_mem_append.1 hread
    exact ihTails htails (.and hpart (ihRight hright trivial))
  | and _ _ ihRight ihTails =>
    obtain ⟨hright, htails⟩ := List.forall_mem_append.1 (List.forall_mem_cons.1 hread).2
    exact ihTails htails (.and hpart (ihRight hright trivial))
  | or _ _ ihRight ihTails =>
    obtain ⟨hright, htails⟩ := List.forall_mem_append.1 (List.forall_mem_cons.1 hread).2
    exact ihTails htails (.or hpart (ihRight hright trivial))
  | andNot _ _ ihRight ihTails =>
    obtain ⟨hright, htails⟩ := List.forall_mem_append.1 (List.forall_mem_cons.1 hread).2
    exact ihTails htails (.and hpart (ihRight hright trivial).not)
  | trailingNot _ _ ihTails => exact ihTails (List.forall_mem_cons.1 hread).2 (.not hpart)

theorem isParsed_of_ofText_eq_ok {t : Text} {q : Query} (h : Query.ofText t = .ok q) :
    q.IsParsed := by
  obtain ⟨⟨ts, ht, hd⟩, -⟩ := ofText_eq_ok_iff.1 h
  exact hd.isParsed ht.isReadable trivial

/-! ## What the text spells -/

theorem Token.text_leaf? {token : Token} {q : Query} (h : token.leaf? = some q) :
    q.text = token.text := by
  cases token <;> simp only [leaf?, Option.some.injEq, reduceCtorEq] at h <;> subst h
  case field name value => cases value <;> rfl
  all_goals rfl

theorem Token.regrouped_leaf? {token : Token} {q : Query} (h : token.leaf? = some q) :
    q.regrouped = q := by
  cases token <;> simp only [leaf?, Option.some.injEq, reduceCtorEq] at h <;> subst h <;> rfl

theorem Token.spelledHeight_leaf? {token : Token} {q : Query} (h : token.leaf? = some q) :
    q.spelledHeight = q.height := by
  cases token <;> simp only [leaf?, Option.some.injEq, reduceCtorEq] at h <;> subst h
  case field name value => cases value <;> rfl
  all_goals rfl

theorem Tokens.not {t : Text} {ts : List Token} (h : Tokens t ts) :
    Tokens (['(', 'N', 'O', 'T', ' '] ++ t ++ [')'])
      (.openParen :: .not :: (ts ++ [.closeParen])) :=
  (Tokens.operator .not (h.append isBreak_closeParen Tokens.nil.closeParen)).openParen

theorem Tokens.binary {s t : Text} {ts us : List Token} (h : Tokens s ts) (h' : Tokens t us)
    (op : Operator) : Tokens ('(' :: s ++ ' ' :: op.text ++ ' ' :: t ++ [')'])
      (.openParen :: (ts ++ op.token :: (us ++ [.closeParen]))) := by
  have hright : Tokens (op.text ++ ' ' :: (t ++ [')'])) (op.token :: (us ++ [.closeParen])) :=
    .operator op (h'.append isBreak_closeParen Tokens.nil.closeParen)
  have hall := (h.append isBreak_blank (hright.blank (by decide))).openParen
  simpa using hall

namespace Query.IsParsed

variable {q : Query}

theorem exists_tokens_text (h : q.IsParsed) :
    ∃ ts, Tokens q.text ts ∧ Derives .term ts q.regrouped := by
  induction h with
  | leaf h hread =>
    rw [Token.text_leaf? h, Token.regrouped_leaf? h]
    exact ⟨_, hread.tokens, .leaf h⟩
  | group _ ih => exact ih
  | not _ ih =>
    obtain ⟨ts, ht, hd⟩ := ih
    refine ⟨_, ht.not, ?_⟩
    have := Derives.group (.expression (.negation hd) .done)
    simpa [regrouped] using this
  | and _ _ ihLeft ihRight =>
    obtain ⟨ts, ht, hd⟩ := ihLeft
    obtain ⟨us, hu, hd'⟩ := ihRight
    refine ⟨_, ht.binary hu .and, ?_⟩
    have := Derives.group (.expression hd (.and hd' .done))
    simpa [regrouped, Operator.token] using this
  | or _ _ ihLeft ihRight =>
    obtain ⟨ts, ht, hd⟩ := ihLeft
    obtain ⟨us, hu, hd'⟩ := ihRight
    refine ⟨_, ht.binary hu .or, ?_⟩
    have := Derives.group (.expression hd (.or hd' .done))
    simpa [regrouped, Operator.token] using this

theorem spells_text (h : q.IsParsed) : Spells q.text q.regrouped := by
  obtain ⟨ts, ht, hd⟩ := h.exists_tokens_text
  have := Derives.expression hd .done
  rw [List.append_nil] at this
  exact ⟨ts, ht, this⟩

theorem height_regrouped (h : q.IsParsed) : q.regrouped.height = q.spelledHeight := by
  induction h with
  | leaf h _ => rw [Token.regrouped_leaf? h, Token.spelledHeight_leaf? h]
  | group _ ih => exact ih
  | not _ ih => simp only [regrouped, height, spelledHeight, ih]
  | and _ _ ihLeft ihRight | or _ _ ihLeft ihRight =>
    simp only [regrouped, height, spelledHeight, ihLeft, ihRight]

end Query.IsParsed

/-! ## Reading the text -/

/-- A text that spells a query is read as that query or refused as too deep. -/
theorem Spells.ofText {t : Text} {q : Query} (h : Spells t q) :
    if q.height ≤ maxDepth then Query.ofText t = .ok q
    else ∃ position, Query.ofText t = .error (.tooDeep position) := by
  obtain ⟨ts, ht, hd⟩ := h
  have hparse := ofTokens_of_derives hd
  simp only [Query.ofText, tokenize_eq_ok_iff.2 ht]
  exact hparse

/-- The text of a query that was read is read again, and what it is read as differs from the query
in its groups only: it has the same text and evaluates to the same. The text is refused only for its
depth, and that is decided by the operators and fields of the query. -/
theorem ofText_text {t : Text} {q : Query} (h : Query.ofText t = .ok q) :
    (q.spelledHeight ≤ maxDepth → ∃ q', Query.ofText q.text = .ok q' ∧
      q'.ungrouped = q.ungrouped ∧ q'.text = q.text ∧
      ∀ (α : Type) [Score α] [PatternReader] (e : Evaluator α) (d : Document),
        e.evaluate q' d = e.evaluate q d) ∧
    (maxDepth < q.spelledHeight →
      ∃ position, Query.ofText q.text = .error (.tooDeep position)) := by
  have hparsed := isParsed_of_ofText_eq_ok h
  have hread := hparsed.spells_text.ofText
  rw [hparsed.height_regrouped] at hread
  constructor
  · intro hle
    rw [if_pos hle] at hread
    exact ⟨q.regrouped, hread, q.ungrouped_regrouped, q.text_regrouped,
      fun _ _ _ e d => e.evaluate_regrouped q d⟩
  · intro hlt
    rwa [if_neg (by omega)] at hread

/-- Groups, leading zeros and a `NOT` with nothing behind it are written in another way than they
were read. -/
theorem ofText_text_groups :
    let t := "((x~007)) title:\"a b\" NOT".toList
    ∃ q, Query.ofText t = .ok q ∧ q.text = "(NOT (x~7 AND title:\"a b\"))".toList ∧
      ∃ q', Query.ofText q.text = .ok q' ∧ q' ≠ q ∧ q'.ungrouped = q.ungrouped := by
  have h : Query.ofText "((x~007)) title:\"a b\" NOT".toList =
      .ok ((Query.fuzzy ['x'] 7).group.group.and
        (.field "title".toList (.phrase "a b".toList))).not := by cbv
  obtain ⟨q', hread, hsame, -⟩ := (ofText_text h).1 (by decide)
  refine ⟨_, h, by cbv, q', hread, ?_, hsame⟩
  rintro rfl
  cbv at hread
  cases hread

end DocumentSearch
