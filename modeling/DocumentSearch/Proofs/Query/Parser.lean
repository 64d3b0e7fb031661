import DocumentSearch.Proofs.Query.Grammar

/-!
# The parser and the grammar

The parser accepts exactly the lists of tokens that spell a query of at most the greatest height,
and gives that query. It has two guards against deep queries, one on the groups and negations that
are open and one on the height of every node that it builds; together they refuse exactly the
queries that are too high.

Results:

* `readings_derive`: what a reader has read spells the query it returns, at the height it reports.
* `Derives.answered`: a reader finds every derivation, unless the query is too high.
* `ofTokens_eq_ok_iff_derives`: the parser and the grammar agree.
-/

namespace DocumentSearch

/-! ## Steps of the readers -/

theorem bind_eq_ok_iff {ε α β : Type} {x : Except ε α} {f : α → Except ε β} {b : β} :
    x >>= f = .ok b ↔ ∃ a, x = .ok a ∧ f a = .ok b := by
  cases x <;> simp [bind, Except.bind]

theorem of_deepen_bind_eq_ok {α : Type} {height position : Nat} {f : Nat → Except QueryError α}
    {a : α} (h : deepen height position >>= f = .ok a) :
    height < maxDepth ∧ f (height + 1) = .ok a := by
  unfold deepen at h
  split at h
  · next hlt => exact ⟨hlt, h⟩
  · cases h

theorem readTerm_of_leaf? {token : Token} {q : Query} (h : token.leaf? = some q)
    (size nesting : Nat) (rest : List Token) :
    readTerm size nesting (token :: rest) = .ok ⟨q, q.height, rest, Nat.lt_succ_self _⟩ := by
  cases token <;> simp only [Token.leaf?, Option.some.injEq, reduceCtorEq] at h <;> subst h
  case field name value => cases value <;> simp [readTerm, FieldValue.query, Query.height]
  all_goals simp [readTerm, Query.height]

/-- A term behind a query, with no operator between them, is joined by `AND`. -/
theorem readTails_of_startsTerm {ts : List Token} (h : startsTerm ts = true)
    (hnot : ts.head? ≠ some .not) (size nesting : Nat) (left : Query) (height : Nat) :
    readTails size nesting left height ts = do
      let right ← readTerm size nesting ts
      let height ← deepen (max height right.height) (size - ts.length)
      let all ← readTails size nesting (left.and right.query) height right.rest
      return ⟨all.query, all.height, all.rest, by
        have := right.fewer; have := all.fewer; omega⟩ := by
  cases ts with
  | nil => cases h
  | cons token ts =>
    cases token with
    | closeParen | and | or => cases h
    | not => exact absurd rfl hnot
    | openParen | phrase _ | field _ _ | fuzzy _ _ | wildcard _ | word _ =>
      rw [readTails] <;> simp

theorem of_closeGroup_eq_ok {bound position : Nat} {inner : Reading bound}
    {r : Reading (bound + 1)} (h : closeGroup position inner = .ok r) :
    inner.rest = .closeParen :: r.rest ∧ inner.height < maxDepth ∧
      r.query = inner.query.group ∧ r.height = inner.height + 1 := by
  unfold closeGroup at h
  split at h
  · obtain ⟨hlt, h⟩ := of_deepen_bind_eq_ok h
    cases h
    exact ⟨rfl, hlt, rfl, rfl⟩
  · cases h

theorem of_negate_eq_ok {bound position : Nat} {inner : Reading bound} {r : Reading (bound + 1)}
    (h : negate position inner = .ok r) :
    r.rest = inner.rest ∧ inner.height < maxDepth ∧ r.query = inner.query.not ∧
      r.height = inner.height + 1 := by
  obtain ⟨hlt, h⟩ := of_deepen_bind_eq_ok h
  cases h
  exact ⟨rfl, hlt, rfl, rfl⟩

/-! ## What is read spells the query -/

/-- The tokens before `rest` spell the query, and its height is known and within the limit. -/
def Spelled (part : Part) (tokens rest : List Token) (q : Query) (height : Nat) : Prop :=
  ∃ used, tokens = used ++ rest ∧ Derives part used q ∧ height = q.height ∧ q.height ≤ maxDepth

theorem spelled_leaf {token : Token} {q : Query} (h : token.leaf? = some q) {size nesting : Nat}
    {rest : List Token} {r : Reading (token :: rest).length}
    (hr : readTerm size nesting (token :: rest) = .ok r) :
    Spelled .term (token :: rest) r.rest r.query r.height := by
  rw [readTerm_of_leaf? h, Except.ok.injEq] at hr
  subst hr
  refine ⟨[token], rfl, .leaf h, rfl, ?_⟩
  exact Nat.le_trans (Token.height_leaf?_le h) (by decide)

namespace Spelled

variable {part part' : Part} {ts us rest : List Token} {p q : Query} {m n : Nat}

theorem height_eq (h : Spelled part ts rest q n) : n = q.height := by
  obtain ⟨_, -, -, hn, -⟩ := h
  exact hn

theorem height_le (h : Spelled part ts rest q n) : n ≤ maxDepth := by
  obtain ⟨_, -, -, hn, hle⟩ := h
  exact hn ▸ hle

/-- Two parts behind each other. -/
theorem append (h : Spelled part ts us p m) (h' : Spelled part' us rest q n) :
    ∃ vs ws, ts = vs ++ ws ++ rest ∧ Derives part vs p ∧ Derives part' ws q ∧ n = q.height ∧
      q.height ≤ maxDepth := by
  obtain ⟨vs, rfl, hd, -, -⟩ := h
  obtain ⟨ws, rfl, hd', hn, hle⟩ := h'
  exact ⟨vs, ws, (List.append_assoc ..).symm, hd, hd', hn, hle⟩

end Spelled

theorem readings_derive (size : Nat) :
    (∀ nesting tokens, ∀ r, readTerm size nesting tokens = .ok r →
      Spelled .term tokens r.rest r.query r.height) ∧
    (∀ nesting tokens, ∀ r, readExpression size nesting tokens = .ok r →
      Spelled .expression tokens r.rest r.query r.height ∧ EndsExpression r.rest) ∧
    (∀ nesting left height tokens, height = left.height → height ≤ maxDepth →
      ∀ r, readTails size nesting left height tokens = .ok r →
        Spelled (.tails left) tokens r.rest r.query r.height ∧ EndsExpression r.rest) := by
  apply readTerm.mutual_induct size
  case case1 =>
    intro nesting r h
    simp [readTerm] at h
  case case2 | case4 =>
    intro nesting rest hn _ r h
    rw [readTerm, if_pos hn] at h
    cases h
  case case3 =>
    intro nesting rest hn ih r h
    rw [readTerm, if_neg hn, bind_eq_ok_iff] at h
    obtain ⟨inner, hi, h⟩ := h
    obtain ⟨⟨used, hused, hd, hh, -⟩, -⟩ := ih inner hi
    obtain ⟨hrest, hlt, hq, hr⟩ := of_closeGroup_eq_ok h
    rw [hrest] at hused
    refine ⟨.openParen :: (used ++ [.closeParen]), by simp [hused], hq ▸ .group hd, ?_, ?_⟩
    all_goals simp only [hq, Query.height]; omega
  case case5 =>
    intro nesting rest hn ih r h
    rw [readTerm, if_neg hn, bind_eq_ok_iff] at h
    obtain ⟨inner, hi, h⟩ := h
    obtain ⟨used, hused, hd, hh, -⟩ := ih inner hi
    obtain ⟨hrest, hlt, hq, hr⟩ := of_negate_eq_ok h
    refine ⟨.not :: used, by simp [hused, hrest], hq ▸ .negation hd, ?_, ?_⟩
    all_goals simp only [hq, Query.height]; omega
  case case6 | case9 | case10 =>
    intro nesting _ rest r h
    exact spelled_leaf rfl h
  case case7 | case8 =>
    intro nesting _ _ rest r h
    exact spelled_leaf rfl h
  case case11 =>
    intro nesting token rest _ _ _ _ _ _ _ r h
    cases token <;> simp_all [readTerm]
  case case12 =>
    intro nesting tokens ihTerm ihTails r h
    rw [readExpression, bind_eq_ok_iff] at h
    obtain ⟨first, hf, h⟩ := h
    obtain ⟨all, ha, h⟩ := bind_eq_ok_iff.1 h
    cases h
    have hterm := ihTerm first hf
    obtain ⟨htails, hends⟩ := ihTails first hterm.height_eq hterm.height_le all ha
    obtain ⟨us, vs, e, hd, hd', hh, hle⟩ := hterm.append htails
    exact ⟨⟨us ++ vs, e, .expression hd hd', hh, hle⟩, hends⟩
  case case13 =>
    intro nesting left height hh hle r h
    rw [readTails] at h
    cases h
    exact ⟨⟨[], rfl, .done, hh, hh ▸ hle⟩, endsExpression_nil⟩
  case case14 =>
    intro nesting left height rest hh hle r h
    rw [readTails] at h
    cases h
    exact ⟨⟨[], rfl, .done, hh, hh ▸ hle⟩, endsExpression_closeParen rest⟩
  case case15 =>
    intro nesting left height rest ihTerm ihTails hh hle r h
    rw [readTails, bind_eq_ok_iff] at h
    obtain ⟨right, hr, h⟩ := h
    obtain ⟨hlt, h⟩ := of_deepen_bind_eq_ok h
    obtain ⟨all, ha, h⟩ := bind_eq_ok_iff.1 h
    cases h
    have hterm := ihTerm right hr
    obtain ⟨htails, hends⟩ :=
      ihTails right _ (by rw [Query.height, hh, hterm.height_eq]) (by omega) all ha
    obtain ⟨us, vs, e, hd, hd', hh, hle⟩ := hterm.append htails
    exact ⟨⟨.and :: (us ++ vs), congrArg _ e, .and hd hd', hh, hle⟩, hends⟩
  case case16 =>
    intro nesting left height rest ihTerm ihTails hh hle r h
    rw [readTails, bind_eq_ok_iff] at h
    obtain ⟨right, hr, h⟩ := h
    obtain ⟨hlt, h⟩ := of_deepen_bind_eq_ok h
    obtain ⟨all, ha, h⟩ := bind_eq_ok_iff.1 h
    cases h
    have hterm := ihTerm right hr
    obtain ⟨htails, hends⟩ :=
      ihTails right _ (by rw [Query.height, hh, hterm.height_eq]) (by omega) all ha
    obtain ⟨us, vs, e, hd, hd', hh, hle⟩ := hterm.append htails
    exact ⟨⟨.or :: (us ++ vs), congrArg _ e, .or hd hd', hh, hle⟩, hends⟩
  case case17 =>
    intro nesting left height rest hstart ihTerm ihTails hh hle r h
    rw [readTails, if_pos hstart, bind_eq_ok_iff] at h
    obtain ⟨right, hr, h⟩ := h
    obtain ⟨-, h⟩ := of_deepen_bind_eq_ok h
    obtain ⟨hlt, h⟩ := of_deepen_bind_eq_ok h
    obtain ⟨all, ha, h⟩ := bind_eq_ok_iff.1 h
    cases h
    have hterm := ihTerm right hr
    obtain ⟨htails, hends⟩ :=
      ihTails right _ (by rw [Query.height, Query.height, hh, hterm.height_eq]) (by omega) all ha
    obtain ⟨us, vs, e, hd, hd', hh, hle⟩ := hterm.append htails
    exact ⟨⟨.not :: (us ++ vs), congrArg _ e, .andNot hd hd', hh, hle⟩, hends⟩
  case case18 =>
    intro nesting left height rest hstart ihTails hh hle r h
    rw [readTails, if_neg hstart] at h
    obtain ⟨hlt, h⟩ := of_deepen_bind_eq_ok h
    obtain ⟨all, ha, h⟩ := bind_eq_ok_iff.1 h
    cases h
    obtain ⟨⟨us, e, hd, hh, hle⟩, hends⟩ :=
      ihTails _ (by rw [Query.height, hh]) (by omega) all ha
    have hlook := (hd.startsTerm_append_eq_false_iff hends).1 (by simpa [← e] using hstart)
    exact ⟨⟨.not :: us, congrArg _ e, .trailingNot hlook hd, hh, hle⟩, hends⟩
  case case19 =>
    intro nesting left height token rest hclose hand hor hnot ihTerm ihTails hh hle r h
    rw [readTails.eq_6 _ _ _ _ _ _ hclose hand hor hnot, bind_eq_ok_iff] at h
    obtain ⟨right, hr, h⟩ := h
    obtain ⟨hlt, h⟩ := of_deepen_bind_eq_ok h
    obtain ⟨all, ha, h⟩ := bind_eq_ok_iff.1 h
    cases h
    have hterm := ihTerm right hr
    obtain ⟨htails, hends⟩ :=
      ihTails right _ (by rw [Query.height, hh, hterm.height_eq]) (by omega) all ha
    obtain ⟨us, vs, e, hd, hd', hh, hle⟩ := hterm.append htails
    refine ⟨⟨us ++ vs, e, .juxtaposed (fun h => ?_) hd hd', hh, hle⟩, hends⟩
    rw [← hd.head?_append (vs ++ all.rest), ← List.append_assoc, ← e] at h
    exact hnot (Option.some.inj h)

/-! ## What spells a query is read -/

/-- The reader gives the query and leaves `rest`, or the query is too high for the groups and
negations that are open and the reader says so. -/
def Answers {bound : Nat} (nesting : Nat) (answer : Except QueryError (Reading bound)) (q : Query)
    (rest : List Token) : Prop :=
  (∃ fewer, answer = .ok ⟨q, q.height, rest, fewer⟩) ∨
    (∃ position, answer = .error (.tooDeep position)) ∧ maxDepth < nesting + q.height

namespace Answers

variable {bound bound' nesting nesting' : Nat} {p q : Query} {ts rest : List Token}

theorem bind {x : Except QueryError (Reading bound)}
    {f : Reading bound → Except QueryError (Reading bound')} (hx : Answers nesting' x p ts)
    (hle : nesting' + p.height ≤ nesting + q.height)
    (hf : ∀ fewer, Answers nesting (f ⟨p, p.height, ts, fewer⟩) q rest) :
    Answers nesting (x >>= f) q rest := by
  rcases hx with ⟨fewer, rfl⟩ | ⟨⟨position, rfl⟩, hlt⟩
  · exact hf fewer
  · exact .inr ⟨⟨position, rfl⟩, by omega⟩

theorem deepen {height position : Nat} {f : Nat → Except QueryError (Reading bound)}
    (hle : height < q.height) (hf : Answers nesting (f (height + 1)) q rest) :
    Answers nesting (deepen height position >>= f) q rest := by
  unfold DocumentSearch.deepen
  split
  · exact hf
  · exact .inr ⟨⟨position, rfl⟩, by omega⟩

theorem guard {position : Nat} {answer : Except QueryError (Reading bound)}
    (hpos : 0 < q.height) (h : Answers nesting answer q rest) :
    Answers nesting
      (if nesting ≥ maxDepth then .error (.tooDeep position) else answer) q rest := by
  split
  · exact .inr ⟨⟨position, rfl⟩, by omega⟩
  · exact h

end Answers

/-- The reader of a part answers with the query, if the part can end before `rest`. -/
def Part.Answered (size nesting : Nat) (tokens rest : List Token) (q : Query) : Part → Prop
  | .term => Answers nesting (readTerm size nesting tokens) q rest
  | .expression => EndsExpression rest → Answers nesting (readExpression size nesting tokens) q rest
  | .tails left => EndsExpression rest →
      Answers nesting (readTails size nesting left left.height tokens) q rest

theorem Derives.answered {part : Part} {ts : List Token} {q : Query} (h : Derives part ts q)
    (size nesting : Nat) (rest : List Token) :
    part.Answered size nesting (ts ++ rest) rest q := by
  induction h generalizing nesting rest with
  | leaf h =>
    rw [Part.Answered, List.singleton_append, readTerm_of_leaf? h]
    exact .inl ⟨_, rfl⟩
  | group inner ih =>
    rw [Part.Answered, List.cons_append, List.append_assoc, readTerm]
    refine .guard (Nat.succ_pos _) ?_
    refine (ih (nesting + 1) (.closeParen :: rest) (by simp)).bind ?_ ?_
    · simp [Query.height]
      omega
    intro fewer
    refine .deepen (Nat.lt_succ_self _) ?_
    exact .inl ⟨_, rfl⟩
  | negation inner ih =>
    rw [Part.Answered, List.cons_append, readTerm]
    refine .guard (Nat.succ_pos _) ?_
    refine (ih (nesting + 1) rest).bind (by simp [Query.height]; omega) ?_
    intro fewer
    refine .deepen (Nat.lt_succ_self _) ?_
    exact .inl ⟨_, rfl⟩
  | expression first tails ihFirst ihTails =>
    intro hends
    rw [List.append_assoc, readExpression]
    refine (ihFirst nesting _).bind (by have := tails.height_le; omega) ?_
    intro fewer
    refine (ihTails nesting rest hends).bind (Nat.le_refl _) ?_
    intro fewer
    exact .inl ⟨_, rfl⟩
  | done =>
    intro hends
    rcases rest with _ | ⟨token, rest⟩
    · rw [List.append_nil, readTails]
      exact .inl ⟨_, rfl⟩
    · obtain rfl : token = .closeParen := by simpa [EndsExpression] using hends
      rw [List.nil_append, readTails]
      exact .inl ⟨_, rfl⟩
  | and right tails ihRight ihTails | or right tails ihRight ihTails =>
    intro hends
    have hheight := tails.height_le
    simp only [Query.height] at hheight
    rw [List.cons_append, List.append_assoc, readTails]
    refine (ihRight nesting _).bind (by omega) ?_
    intro fewer
    refine .deepen (by simp only; omega) ?_
    refine (ihTails nesting rest hends).bind (Nat.le_refl _) ?_
    intro fewer
    exact .inl ⟨_, rfl⟩
  | juxtaposed hnot right tails ihRight ihTails =>
    intro hends
    have hheight := tails.height_le
    simp only [Query.height] at hheight
    rw [List.append_assoc, readTails_of_startsTerm (right.startsTerm _)
      (by rwa [right.head?_append])]
    refine (ihRight nesting _).bind (by omega) ?_
    intro fewer
    refine .deepen (by simp only; omega) ?_
    refine (ihTails nesting rest hends).bind (Nat.le_refl _) ?_
    intro fewer
    exact .inl ⟨_, rfl⟩
  | andNot right tails ihRight ihTails =>
    intro hends
    have hheight := tails.height_le
    simp only [Query.height] at hheight
    rw [List.cons_append, List.append_assoc, readTails, if_pos (right.startsTerm _)]
    refine (ihRight nesting _).bind (by omega) ?_
    intro fewer
    refine .deepen (by simp only; omega) ?_
    refine .deepen (by simp only; omega) ?_
    refine (ihTails nesting rest hends).bind (Nat.le_refl _) ?_
    intro fewer
    exact .inl ⟨_, rfl⟩
  | trailingNot hlook tails ihTails =>
    intro hends
    have hheight := tails.height_le
    simp only [Query.height] at hheight
    have halone := (tails.startsTerm_append_eq_false_iff hends).2 hlook
    rw [List.cons_append, readTails, if_neg (by simp [halone])]
    refine .deepen (by omega) ?_
    refine (ihTails nesting rest hends).bind (Nat.le_refl _) ?_
    intro fewer
    exact .inl ⟨_, rfl⟩

/-! ## Parser and grammar -/

theorem derives_of_ofTokens_eq_ok {ts : List Token} {q : Query}
    (h : Query.ofTokens ts = .ok q) : Derives .expression ts q ∧ q.height ≤ maxDepth := by
  obtain ⟨all, ha, h⟩ := bind_eq_ok_iff.1 h
  obtain ⟨⟨used, e, hd, -, hle⟩, -⟩ := (readings_derive _).2.1 0 ts all ha
  split at h
  · next hrest =>
    cases h
    rw [hrest, List.append_nil] at e
    exact ⟨e ▸ hd, hle⟩
  · cases h

/-- A list of tokens that spells a query is read as that query or refused as too deep, and which of
the two is decided by the height of the query alone. -/
theorem ofTokens_of_derives {ts : List Token} {q : Query} (h : Derives .expression ts q) :
    if q.height ≤ maxDepth then Query.ofTokens ts = .ok q
    else ∃ position, Query.ofTokens ts = .error (.tooDeep position) := by
  have ha := h.answered ts.length 0 [] endsExpression_nil
  rw [List.append_nil] at ha
  rcases ha with ⟨fewer, ha⟩ | ⟨⟨position, ha⟩, hlt⟩
  · have hok : Query.ofTokens ts = .ok q := by
      unfold Query.ofTokens
      rw [ha]
      rfl
    rw [if_pos (derives_of_ofTokens_eq_ok hok).2]
    exact hok
  · rw [if_neg (by omega)]
    refine ⟨position, ?_⟩
    unfold Query.ofTokens
    rw [ha]
    rfl

/-- The parser accepts exactly the lists of tokens that spell a query of at most the greatest
height. Every such list spells one query only, and its leaves are the leaf tokens in their order. A
list that spells a higher query is refused for its depth and for nothing else. -/
theorem ofTokens_eq_ok_iff_derives (ts : List Token) (q : Query) :
    (Query.ofTokens ts = .ok q ↔ Derives .expression ts q ∧ q.height ≤ maxDepth) ∧
    (Derives .expression ts q →
      (∀ q', Derives .expression ts q' → q' = q) ∧
      q.leaves = ts.filterMap Token.leaf? ∧
      (maxDepth < q.height → ∃ position, Query.ofTokens ts = .error (.tooDeep position))) := by
  refine ⟨⟨derives_of_ofTokens_eq_ok, ?_⟩, fun h => ⟨fun q' h' => h'.unique h, h.leaves_eq, ?_⟩⟩
  · rintro ⟨h, hle⟩
    have := ofTokens_of_derives h
    rwa [if_pos hle] at this
  · intro hlt
    have := ofTokens_of_derives h
    rwa [if_neg (by omega)] at this

/-- `a NOT OR ( b NOT )`: both negations stand alone, one before an operator and one before the end
of its group. -/
theorem ofTokens_lone_negations :
    let a := Query.term ['a']
    let b := Query.term ['b']
    Query.ofTokens [.word ['a'], .not, .or, .openParen, .word ['b'], .not, .closeParen] =
        .ok (a.not.or b.not.group) ∧
      (a.not.or b.not.group).leaves = [a, b] := by
  have a : Derives .term [.word ['a']] (.term ['a']) := .leaf rfl
  have b : Derives .term [.word ['b']] (.term ['b']) := .leaf rfl
  have group : Derives .term [.openParen, .word ['b'], .not, .closeParen]
      (Query.term ['b']).not.group := .group (.expression b (.trailingNot (by simp) .done))
  have all : Derives .expression
      [.word ['a'], .not, .or, .openParen, .word ['b'], .not, .closeParen]
      ((Query.term ['a']).not.or (Query.term ['b']).not.group) :=
    .expression a (.trailingNot (by simp) (.or group .done))
  exact ⟨(ofTokens_eq_ok_iff_derives _ _).1.2 ⟨all, by decide⟩,
    ((ofTokens_eq_ok_iff_derives _ _).2 all).2.1⟩

end DocumentSearch
