import DocumentSearch.Query.Parser

/-!
# The grammar of queries

Which lists of tokens spell a query, and which query, said without a parser: as derivations of
terms, of expressions, and of the tails that an expression adds to a query on its left. The depth
limit is no part of the grammar.

Results:

* `Derives.unique`: a list of tokens spells at most one query.
* `Derives.leaves_eq`: the leaves of the query are the leaf tokens, each once and in their order.
* `Derives.negation_mem_operators_iff`: a query holds a negation iff it is spelled with a `NOT`.
* `Derives.height_le`: tails only add to the height of what stands before them.
-/

namespace DocumentSearch

/-- The leaf that a token stands for on its own. -/
def Token.leaf? : Token → Option Query
  | .phrase text => some (.phrase text)
  | .field name value => some (.field name value.query)
  | .fuzzy term distance => some (.fuzzy term distance)
  | .wildcard pattern => some (.wildcard pattern)
  | .word value => some (.term value)
  | .openParen | .closeParen | .and | .or | .not => none

/-- The leaves of a query from left to right. -/
def Query.leaves : Query → List Query
  | .group inner => inner.leaves
  | .unary _ operand => operand.leaves
  | .binary _ left right => left.leaves ++ right.leaves
  | leaf => [leaf]

/-- What tokens are read as. -/
inductive Part where
  | term
  | expression
  /-- What an expression adds to the query `left`. -/
  | tails (left : Query)

/-- The tokens, read as the given part, spell the query. A tail takes the whole query on its left as
its left operand. Tails reach to the end of their expression, which is the end of all tokens or the
closing parenthesis of a group; a `NOT` can do without a term there and before `AND` and `OR`. -/
inductive Derives : Part → List Token → Query → Prop where
  | leaf {token : Token} {q : Query} (h : token.leaf? = some q) : Derives .term [token] q
  | group {ts : List Token} {q : Query} (inner : Derives .expression ts q) :
      Derives .term (.openParen :: (ts ++ [.closeParen])) q.group
  | negation {ts : List Token} {q : Query} (inner : Derives .term ts q) :
      Derives .term (.not :: ts) q.not
  | expression {ts us : List Token} {p q : Query} (first : Derives .term ts p)
      (tails : Derives (.tails p) us q) : Derives .expression (ts ++ us) q
  | done {p : Query} : Derives (.tails p) [] p
  | and {ts us : List Token} {p r q : Query} (right : Derives .term ts r)
      (tails : Derives (.tails (p.and r)) us q) : Derives (.tails p) (.and :: (ts ++ us)) q
  | or {ts us : List Token} {p r q : Query} (right : Derives .term ts r)
      (tails : Derives (.tails (p.or r)) us q) : Derives (.tails p) (.or :: (ts ++ us)) q
  | juxtaposed {ts us : List Token} {p r q : Query} (h : ts.head? ≠ some .not)
      (right : Derives .term ts r) (tails : Derives (.tails (p.and r)) us q) :
      Derives (.tails p) (ts ++ us) q
  | andNot {ts us : List Token} {p r q : Query} (right : Derives .term ts r)
      (tails : Derives (.tails (p.and r.not)) us q) : Derives (.tails p) (.not :: (ts ++ us)) q
  | trailingNot {us : List Token} {p q : Query} (h : us.head? ∈ [none, some .and, some .or])
      (tails : Derives (.tails p.not) us q) : Derives (.tails p) (.not :: us) q

/-- The operators of a query from left to right. -/
def Query.operators : Query → List Operator
  | .term _ | .phrase _ | .wildcard _ | .fuzzy _ _ => []
  | .field _ inner | .group inner => inner.operators
  | .unary op operand => op :: operand.operators
  | .binary op left right => left.operators ++ op :: right.operators

/-! ## Beginnings and ends -/

theorem Token.height_leaf?_le {token : Token} {q : Query} (h : token.leaf? = some q) :
    q.height ≤ 1 := by
  cases token <;> simp only [leaf?, Option.some.injEq, reduceCtorEq] at h <;> subst h
  case field name value => cases value <;> simp [FieldValue.query, Query.height]
  all_goals simp [Query.height]

theorem Token.leaves_leaf? {token : Token} {q : Query} (h : token.leaf? = some q) :
    q.leaves = [q] := by
  cases token <;> simp only [leaf?, Option.some.injEq, reduceCtorEq] at h <;> subst h <;> rfl

theorem Token.operators_leaf? {token : Token} {q : Query} (h : token.leaf? = some q) :
    q.operators = [] := by
  cases token <;> simp only [leaf?, Option.some.injEq, reduceCtorEq] at h <;> subst h
  case field name value => cases value <;> rfl
  all_goals rfl

theorem startsTerm_eq_false_iff {ts : List Token} :
    startsTerm ts = false ↔ ts.head? ∈ [none, some .closeParen, some .and, some .or] := by
  cases ts with
  | nil => simp [startsTerm]
  | cons token ts => cases token <;> simp [startsTerm]

/-- A term begins with a token that can begin a term, whatever stands behind it. -/
theorem Derives.startsTerm {ts : List Token} {q : Query} (h : Derives .term ts q)
    (rest : List Token) : startsTerm (ts ++ rest) = true := by
  cases h with
  | @leaf token _ h => cases token <;> first | rfl | simp [Token.leaf?] at h
  | group inner => rfl
  | negation inner => rfl

theorem Derives.ne_nil {ts : List Token} {q : Query} (h : Derives .expression ts q) : ts ≠ [] := by
  cases h with
  | @expression ts us _ _ first tails =>
    intro hnil
    have hstarts := first.startsTerm us
    rw [hnil] at hstarts
    cases hstarts

/-- Can an expression end before these tokens? -/
def EndsExpression (rest : List Token) : Prop := rest.head? ∈ [none, some .closeParen]

@[simp] theorem endsExpression_nil : EndsExpression [] := by simp [EndsExpression]

@[simp] theorem endsExpression_closeParen (rest : List Token) :
    EndsExpression (.closeParen :: rest) := by simp [EndsExpression]

/-- The head of a term does not depend on what stands behind it. -/
theorem Derives.head?_append {ts : List Token} {q : Query} (h : Derives .term ts q)
    (rest : List Token) : (ts ++ rest).head? = ts.head? := by
  cases h <;> rfl

/-- A term behind a query is joined to it by `AND`, with or without a `NOT` at its beginning. -/
theorem Derives.joined {ts us : List Token} {p q r : Query} (right : Derives .term ts r)
    (tails : Derives (.tails (p.and r)) us q) : Derives (.tails p) (ts ++ us) q := by
  cases right with
  | @leaf token _ hleaf =>
    refine .juxtaposed ?_ (.leaf hleaf) tails
    rintro heq
    cases heq
    cases hleaf
  | group inner => exact .juxtaposed (by simp) (.group inner) tails
  | negation inner => exact .andNot inner tails

theorem Derives.head?_ne_closeParen {p q : Query} {us : List Token} (h : Derives (.tails p) us q) :
    us.head? ≠ some .closeParen := by
  cases h with
  | @juxtaposed ts vs _ _ _ _ right _ =>
    intro hhead
    have := right.startsTerm vs
    rw [startsTerm_eq_false_iff.2 (by simp [hhead])] at this
    cases this
  | _ => simp

/-- Whether a `NOT` stands alone can be seen from its expression, whatever stands behind that. -/
theorem Derives.startsTerm_append_eq_false_iff {p q : Query} {us rest : List Token}
    (h : Derives (.tails p) us q) (hr : EndsExpression rest) :
    DocumentSearch.startsTerm (us ++ rest) = false ↔ us.head? ∈ [none, some .and, some .or] := by
  have hclose := h.head?_ne_closeParen
  rw [startsTerm_eq_false_iff]
  cases us with
  | nil =>
    simp only [EndsExpression, List.mem_cons, List.not_mem_nil, or_false] at hr
    rcases hr with hr | hr <;> simp [hr]
  | cons u us =>
    have hu : u ≠ .closeParen := by simpa using hclose
    simp [hu]

/-! ## Height and leaves -/

namespace Derives

theorem height_le {p q : Query} {us : List Token} (h : Derives (.tails p) us q) :
    p.height ≤ q.height := by
  generalize hpart : Part.tails p = part at h
  induction h generalizing p with
  | leaf | group | negation | expression => cases hpart
  | done => cases hpart; exact Nat.le_refl _
  | and _ _ _ ih | or _ _ _ ih | juxtaposed _ _ _ _ ih | andNot _ _ _ ih | trailingNot _ _ ih =>
    cases hpart
    have := ih rfl
    simp only [Query.height] at this
    omega

end Derives

/-- The leaves that stand before the tokens of the part. -/
def Part.leaves : Part → List Query
  | .term | .expression => []
  | .tails left => left.leaves

namespace Derives

theorem leaves_eq_append {part : Part} {ts : List Token} {q : Query} (h : Derives part ts q) :
    q.leaves = part.leaves ++ ts.filterMap Token.leaf? := by
  induction h with
  | leaf h => simp [Token.leaves_leaf? h, h, Part.leaves]
  | group _ ih | negation _ ih =>
    simpa [Query.leaves, Part.leaves, List.filterMap_cons, Token.leaf?] using ih
  | done => simp [Part.leaves]
  | expression _ _ ihFirst ihTails =>
    rw [ihTails]
    simp [Part.leaves, ihFirst]
  | and _ _ ihRight ihTails | or _ _ ihRight ihTails | juxtaposed _ _ _ ihRight ihTails
  | andNot _ _ ihRight ihTails =>
    rw [ihTails]
    simp [Part.leaves, Query.leaves, ihRight, List.filterMap_cons, Token.leaf?]
  | trailingNot _ _ ihTails =>
    rw [ihTails]
    simp [Part.leaves, Query.leaves, List.filterMap_cons, Token.leaf?]

/-- No leaf is lost, added or moved. -/
theorem leaves_eq {ts : List Token} {q : Query} (h : Derives .expression ts q) :
    q.leaves = ts.filterMap Token.leaf? := leaves_eq_append h

end Derives

/-! ## Negations -/

/-- The operators that stand before the tokens of the part. -/
def Part.operators : Part → List Operator
  | .term | .expression => []
  | .tails left => left.operators

namespace Derives

theorem negation_mem_operators_iff_or {part : Part} {ts : List Token} {q : Query}
    (h : Derives part ts q) : .not ∈ q.operators ↔ .not ∈ part.operators ∨ .not ∈ ts := by
  induction h with
  | @leaf token _ h =>
    have hne : token ≠ .not := by
      rintro rfl
      cases h
    simp [Token.operators_leaf? h, Part.operators, Ne.symm hne]
  | group _ ih => simpa [Query.operators, Part.operators] using ih
  | negation _ _ => simp [Query.operators]
  | expression _ _ ihFirst ihTails =>
    rw [ihTails]
    simp [Part.operators, ihFirst]
  | done => simp [Part.operators]
  | and _ _ ihRight ihTails | or _ _ ihRight ihTails | juxtaposed _ _ _ ihRight ihTails =>
    rw [ihTails]
    simp [Part.operators, Query.operators, ihRight, or_assoc]
  | andNot _ _ _ ihTails | trailingNot _ _ ihTails =>
    rw [ihTails]
    simp [Part.operators, Query.operators]

/-- Nothing but a `NOT` makes a negation. -/
theorem negation_mem_operators_iff {ts : List Token} {q : Query} (h : Derives .expression ts q) :
    .not ∈ q.operators ↔ .not ∈ ts := by
  simpa [Part.operators] using h.negation_mem_operators_iff_or

end Derives

/-! ## One query at most -/

/-- How an expression goes on. -/
inductive Continuation where
  | done
  | and
  | or
  | juxtaposed
  | andNot
  | trailingNot

/-- How an expression goes on that stands before the tokens. -/
def continuation : List Token → Continuation
  | [] | .closeParen :: _ => .done
  | .and :: _ => .and
  | .or :: _ => .or
  | .not :: ts => if startsTerm ts then .andNot else .trailingNot
  | _ => .juxtaposed

/-- The tails `ts` go on in the given way behind `p`, and `q` is the whole. -/
def Continuation.Spells (p : Query) (ts : List Token) (q : Query) : Continuation → Prop
  | .done => ts = [] ∧ q = p
  | .and => ∃ us vs r, ts = .and :: (us ++ vs) ∧ Derives .term us r ∧
      Derives (.tails (p.and r)) vs q
  | .or => ∃ us vs r, ts = .or :: (us ++ vs) ∧ Derives .term us r ∧ Derives (.tails (p.or r)) vs q
  | .juxtaposed => ∃ us vs r, ts = us ++ vs ∧ Derives .term us r ∧ Derives (.tails (p.and r)) vs q
  | .andNot => ∃ us vs r, ts = .not :: (us ++ vs) ∧ Derives .term us r ∧
      Derives (.tails (p.and r.not)) vs q
  | .trailingNot => ∃ vs, ts = .not :: vs ∧ Derives (.tails p.not) vs q

theorem continuation_of_endsExpression {rest : List Token} (hr : EndsExpression rest) :
    continuation rest = .done := by
  rcases rest with _ | ⟨token, rest⟩
  · rfl
  · obtain rfl : token = .closeParen := by simpa [EndsExpression] using hr
    rfl

namespace Derives

theorem continuation_juxtaposed {ts : List Token} {q : Query} (h : Derives .term ts q)
    (hnot : ts.head? ≠ some .not) (rest : List Token) :
    continuation (ts ++ rest) = .juxtaposed := by
  cases h with
  | @leaf token _ h => cases token <;> first | rfl | simp [Token.leaf?] at h
  | group _ => rfl
  | negation _ => simp at hnot

theorem continuation_andNot {ts : List Token} {q : Query} (h : Derives .term ts q)
    (rest : List Token) : continuation (.not :: (ts ++ rest)) = .andNot := by
  rw [continuation, h.startsTerm rest, if_pos rfl]

theorem continuation_trailingNot {p q : Query} {us rest : List Token} (h : Derives (.tails p) us q)
    (hlook : us.head? ∈ [none, some .and, some .or]) (hr : EndsExpression rest) :
    continuation (.not :: (us ++ rest)) = .trailingNot := by
  simp [continuation, (h.startsTerm_append_eq_false_iff hr).2 hlook]

/-- How tails go on can be seen from the tokens alone. -/
theorem spells_continuation {p q : Query} {ts rest : List Token} (h : Derives (.tails p) ts q)
    (hr : EndsExpression rest) : (continuation (ts ++ rest)).Spells p ts q := by
  cases h with
  | done =>
    rw [List.nil_append, continuation_of_endsExpression hr]
    exact ⟨rfl, rfl⟩
  | and right tails | or right tails => exact ⟨_, _, _, rfl, right, tails⟩
  | juxtaposed hnot right tails =>
    rw [List.append_assoc, right.continuation_juxtaposed hnot]
    exact ⟨_, _, _, rfl, right, tails⟩
  | andNot right tails =>
    rw [List.cons_append, List.append_assoc, right.continuation_andNot]
    exact ⟨_, _, _, rfl, right, tails⟩
  | trailingNot hlook tails =>
    rw [List.cons_append, tails.continuation_trailingNot hlook hr]
    exact ⟨_, rfl, tails⟩

theorem unique_of_append_eq {part : Part} {ts ts' rest rest' : List Token} {q q' : Query}
    (h : Derives part ts q) (h' : Derives part ts' q')
    (hends : part = .term ∨ EndsExpression rest ∧ EndsExpression rest')
    (e : ts ++ rest = ts' ++ rest') : ts = ts' ∧ q = q' := by
  induction h generalizing ts' rest rest' q' with
  | leaf h =>
    cases h' with
    | leaf h' =>
      simp only [List.cons_append, List.nil_append, List.cons.injEq] at e
      obtain ⟨rfl, -⟩ := e
      simpa [h] using h'
    | group _ | negation _ =>
      simp only [List.cons_append, List.nil_append, List.cons.injEq] at e
      obtain ⟨rfl, -⟩ := e
      simp [Token.leaf?] at h
  | group _ ih =>
    cases h' with
    | leaf h' =>
      simp only [List.cons_append, List.nil_append, List.cons.injEq] at e
      obtain ⟨rfl, -⟩ := e
      simp [Token.leaf?] at h'
    | group inner' =>
      simp only [List.cons_append, List.append_assoc, List.nil_append, List.cons.injEq,
        true_and] at e
      obtain ⟨rfl, rfl⟩ := ih inner' (.inr (by simp)) e
      exact ⟨rfl, rfl⟩
    | negation _ => simp at e
  | negation _ ih =>
    cases h' with
    | leaf h' =>
      simp only [List.cons_append, List.nil_append, List.cons.injEq] at e
      obtain ⟨rfl, -⟩ := e
      simp [Token.leaf?] at h'
    | group inner' => simp at e
    | negation inner' =>
      simp only [List.cons_append, List.cons.injEq, true_and] at e
      obtain ⟨rfl, rfl⟩ := ih inner' (.inl rfl) e
      exact ⟨rfl, rfl⟩
  | expression _ _ ihFirst ihTails =>
    cases h' with
    | expression first' tails' =>
      simp only [List.append_assoc] at e
      obtain ⟨rfl, rfl⟩ := ihFirst first' (.inl rfl) e
      obtain ⟨rfl, rfl⟩ := ihTails tails' (.inr (by simpa using hends)) (List.append_cancel_left e)
      exact ⟨rfl, rfl⟩
  | done =>
    obtain ⟨hr, hr'⟩ := hends.resolve_left (by simp)
    have hs := h'.spells_continuation hr'
    rw [← e, List.nil_append, continuation_of_endsExpression hr] at hs
    exact ⟨hs.1.symm, hs.2.symm⟩
  | and _ _ ihRight ihTails | or _ _ ihRight ihTails =>
    have hr := hends.resolve_left (by simp)
    have hs := h'.spells_continuation hr.2
    rw [← e] at hs
    obtain ⟨us', vs', r', rfl, right', tails'⟩ := hs
    simp only [List.cons_append, List.append_assoc, List.cons.injEq, true_and] at e
    obtain ⟨rfl, rfl⟩ := ihRight right' (.inl rfl) e
    obtain ⟨rfl, rfl⟩ := ihTails tails' (.inr hr) (List.append_cancel_left e)
    exact ⟨rfl, rfl⟩
  | juxtaposed hnot right _ ihRight ihTails =>
    have hr := hends.resolve_left (by simp)
    have hs := h'.spells_continuation hr.2
    rw [← e, List.append_assoc, right.continuation_juxtaposed hnot] at hs
    obtain ⟨us', vs', r', rfl, right', tails'⟩ := hs
    simp only [List.append_assoc] at e
    obtain ⟨rfl, rfl⟩ := ihRight right' (.inl rfl) e
    obtain ⟨rfl, rfl⟩ := ihTails tails' (.inr hr) (List.append_cancel_left e)
    exact ⟨rfl, rfl⟩
  | andNot right _ ihRight ihTails =>
    have hr := hends.resolve_left (by simp)
    have hs := h'.spells_continuation hr.2
    rw [← e, List.cons_append, List.append_assoc, right.continuation_andNot] at hs
    obtain ⟨us', vs', r', rfl, right', tails'⟩ := hs
    simp only [List.cons_append, List.append_assoc, List.cons.injEq, true_and] at e
    obtain ⟨rfl, rfl⟩ := ihRight right' (.inl rfl) e
    obtain ⟨rfl, rfl⟩ := ihTails tails' (.inr hr) (List.append_cancel_left e)
    exact ⟨rfl, rfl⟩
  | trailingNot hlook tails ihTails =>
    have hr := hends.resolve_left (by simp)
    have hs := h'.spells_continuation hr.2
    rw [← e, List.cons_append, tails.continuation_trailingNot hlook hr.1] at hs
    obtain ⟨vs', rfl, tails'⟩ := hs
    simp only [List.cons_append, List.cons.injEq, true_and] at e
    obtain ⟨rfl, rfl⟩ := ihTails tails' (.inr hr) e
    exact ⟨rfl, rfl⟩

/-- A list of tokens spells at most one query. -/
theorem unique {ts : List Token} {q q' : Query} (h : Derives .expression ts q)
    (h' : Derives .expression ts q') : q = q' :=
  (h.unique_of_append_eq h' (.inr ⟨endsExpression_nil, endsExpression_nil⟩) rfl).2

end Derives

end DocumentSearch
