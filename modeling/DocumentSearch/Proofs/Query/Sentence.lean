import DocumentSearch.Proofs.Query.Parser

/-!
# Sentences

The language of queries as a short grammar, in which a leaf is any token that is no operator and no
parenthesis:

    Expression := Term ( [ AND | OR ] Term | NOT Term | NOT )*
    Term       := '(' Expression ')' | NOT Term | Leaf

The grammar tells which lists of tokens are sentences, but not which queries they spell: a `NOT`
before a term can be read as two tails or as one. A reader that looks one token ahead takes a `NOT`
behind a `NOT` for the beginning of a term. So it loses the sentences in which two of them stand
before a token that begins no term, and no other ones.

Results:

* `exists_derives_iff`: the sentences that spell a query.
* `ofTokens_accepts_sentences`: the parser accepts these sentences, up to the depth limit.
* `ofTokens_two_lone_nots`: a sentence that it refuses.
-/

namespace DocumentSearch

/-- What a list of tokens can be. -/
inductive Category where
  | term
  | expression
  /-- What stands behind the first term of an expression. -/
  | tails

/-- The short grammar allows the tokens in the category. -/
inductive Sentence : Category → List Token → Prop where
  | leaf {token : Token} {q : Query} (h : token.leaf? = some q) : Sentence .term [token]
  | group {ts : List Token} (inner : Sentence .expression ts) :
      Sentence .term (.openParen :: (ts ++ [.closeParen]))
  | negation {ts : List Token} (inner : Sentence .term ts) : Sentence .term (.not :: ts)
  | expression {ts us : List Token} (first : Sentence .term ts) (tails : Sentence .tails us) :
      Sentence .expression (ts ++ us)
  | done : Sentence .tails []
  | and {ts us : List Token} (right : Sentence .term ts) (tails : Sentence .tails us) :
      Sentence .tails (.and :: (ts ++ us))
  | or {ts us : List Token} (right : Sentence .term ts) (tails : Sentence .tails us) :
      Sentence .tails (.or :: (ts ++ us))
  | juxtaposed {ts us : List Token} (right : Sentence .term ts) (tails : Sentence .tails us) :
      Sentence .tails (ts ++ us)
  | andNot {ts us : List Token} (right : Sentence .term ts) (tails : Sentence .tails us) :
      Sentence .tails (.not :: (ts ++ us))
  | loneNot {us : List Token} (tails : Sentence .tails us) : Sentence .tails (.not :: us)

/-- What the part is in the short grammar. -/
def Part.category : Part → Category
  | .term => .term
  | .expression => .expression
  | .tails _ => .tails

theorem Derives.sentence {part : Part} {ts : List Token} {q : Query} (h : Derives part ts q) :
    Sentence part.category ts := by
  induction h with
  | leaf h => exact .leaf h
  | group _ ih => exact .group ih
  | negation _ ih => exact .negation ih
  | expression _ _ ihFirst ihTails => exact .expression ihFirst ihTails
  | done => exact .done
  | and _ _ ihRight ihTails => exact .and ihRight ihTails
  | or _ _ ihRight ihTails => exact .or ihRight ihTails
  | juxtaposed _ _ _ ihRight ihTails => exact .juxtaposed ihRight ihTails
  | andNot _ _ ihRight ihTails => exact .andNot ihRight ihTails
  | trailingNot _ _ ihTails => exact .loneNot ihTails

/-! ## Two `NOT`s in a row -/

/-- Behind two `NOT`s in a row a term can begin. -/
def NotsLead (ts : List Token) : Prop :=
  ∀ rest, .not :: .not :: rest <:+ ts → startsTerm rest = true

namespace NotsLead

variable {ts us : List Token} {token : Token}

theorem nil : NotsLead [] := by
  intro rest h
  cases List.suffix_nil.1 h

theorem of_append (h : NotsLead (us ++ ts)) : NotsLead ts := fun rest hrest =>
  h rest (hrest.trans (List.suffix_append us ts))

theorem of_cons (h : NotsLead (token :: ts)) : NotsLead ts := fun rest hrest =>
  h rest (hrest.trans (List.suffix_cons token ts))

theorem cons (h : NotsLead ts) (hne : token ≠ .not) : NotsLead (token :: ts) := by
  intro rest hrest
  rcases List.suffix_cons_iff.1 hrest with heq | hrest
  · cases heq
    exact absurd rfl hne
  · exact h rest hrest

theorem cons_not (h : NotsLead ts) (hnext : ∀ rest, ts = .not :: rest → startsTerm rest = true) :
    NotsLead (.not :: ts) := by
  intro rest hrest
  rcases List.suffix_cons_iff.1 hrest with heq | hrest
  · cases heq
    exact hnext rest rfl
  · exact h rest hrest

end NotsLead

/-- A term that begins with `NOT` has a term behind it. -/
theorem Derives.startsTerm_of_append_eq {ts us rest : List Token} {q : Query}
    (h : Derives .term ts q) (e : ts ++ us = .not :: rest) :
    DocumentSearch.startsTerm rest = true := by
  cases h with
  | leaf h =>
    cases e
    cases h
  | group _ => cases e
  | negation inner =>
    cases e
    exact inner.startsTerm us

theorem Derives.notsLead {part : Part} {ts rest : List Token} {q : Query} (h : Derives part ts q)
    (hends : part = .term ∨ EndsExpression rest) (hrest : NotsLead rest) :
    NotsLead (ts ++ rest) := by
  induction h generalizing rest with
  | @leaf token _ h =>
    refine hrest.cons ?_
    rintro rfl
    cases h
  | group _ ih =>
    rw [List.cons_append, List.append_assoc]
    exact (ih (.inr (by simp)) (hrest.cons (by simp))).cons (by simp)
  | negation inner ih =>
    exact (ih (.inl rfl) hrest).cons_not fun _ => inner.startsTerm_of_append_eq
  | expression _ _ ihFirst ihTails =>
    rw [List.append_assoc]
    exact ihFirst (.inl rfl) (ihTails (.inr (by simpa using hends)) hrest)
  | done => exact hrest
  | and _ _ ihRight ihTails | or _ _ ihRight ihTails =>
    rw [List.cons_append, List.append_assoc]
    exact (ihRight (.inl rfl) (ihTails (.inr (by simpa using hends)) hrest)).cons (by simp)
  | juxtaposed _ _ _ ihRight ihTails =>
    rw [List.append_assoc]
    exact ihRight (.inl rfl) (ihTails (.inr (by simpa using hends)) hrest)
  | andNot right _ ihRight ihTails =>
    rw [List.cons_append, List.append_assoc]
    refine (ihRight (.inl rfl) (ihTails (.inr (by simpa using hends)) hrest)).cons_not ?_
    exact fun _ => right.startsTerm_of_append_eq
  | trailingNot hlook tails ihTails =>
    have hr : EndsExpression rest := hends.resolve_left (by simp)
    refine (ihTails (.inr hr) hrest).cons_not fun us e => ?_
    -- nothing that a lone `NOT` can stand before is a `NOT`
    have halone := (tails.startsTerm_append_eq_false_iff hr).2 hlook
    rw [e] at halone
    cases halone

/-! ## Sentences that spell a query -/

/-- Whether tokens can be tails does not depend on the query before them. -/
theorem Derives.exists_of_tails {p q : Query} {us : List Token} (h : Derives (.tails p) us q)
    (p' : Query) : ∃ q', Derives (.tails p') us q' := by
  generalize hpart : Part.tails p = part at h
  induction h generalizing p p' with
  | leaf | group | negation | expression => cases hpart
  | done => exact ⟨p', .done⟩
  | @and _ _ _ r _ right _ _ ih =>
    obtain ⟨q', hq'⟩ := ih (p'.and r) rfl
    exact ⟨q', .and right hq'⟩
  | @or _ _ _ r _ right _ _ ih =>
    obtain ⟨q', hq'⟩ := ih (p'.or r) rfl
    exact ⟨q', .or right hq'⟩
  | @juxtaposed _ _ _ r _ hnot right _ _ ih =>
    obtain ⟨q', hq'⟩ := ih (p'.and r) rfl
    exact ⟨q', .juxtaposed hnot right hq'⟩
  | @andNot _ _ _ r _ right _ _ ih =>
    obtain ⟨q', hq'⟩ := ih (p'.and r.not) rfl
    exact ⟨q', .andNot right hq'⟩
  | trailingNot hlook _ ih =>
    obtain ⟨q', hq'⟩ := ih p'.not rfl
    exact ⟨q', .trailingNot hlook hq'⟩

/-- The tokens are tails of every query. -/
def AreTails (us : List Token) : Prop := ∀ p, ∃ q, Derives (.tails p) us q

namespace AreTails

variable {ts us : List Token} {r : Query}

theorem of_derives {p q : Query} (h : Derives (.tails p) us q) : AreTails us := h.exists_of_tails

theorem andNot (h : AreTails us) (right : Derives .term ts r) : AreTails (.not :: (ts ++ us)) := by
  intro p
  obtain ⟨q, hq⟩ := h (p.and r.not)
  exact ⟨q, .andNot right hq⟩

theorem juxtaposed (h : AreTails us) (right : Derives .term ts r) : AreTails (ts ++ us) := by
  intro p
  obtain ⟨q, hq⟩ := h (p.and r)
  exact ⟨q, right.joined hq⟩

/-- A `NOT` stands alone before tails, unless it negates the term that they begin with. -/
theorem loneNot {rest : List Token} (h : AreTails us) (hr : EndsExpression rest)
    (hlead : NotsLead (.not :: (us ++ rest))) : AreTails (.not :: us) := by
  intro p
  obtain ⟨q, hq⟩ := h p.not
  cases hq with
  | done => exact ⟨_, .trailingNot (by simp) .done⟩
  | and right tails => exact ⟨_, .trailingNot (by simp) (.and right tails)⟩
  | or right tails => exact ⟨_, .trailingNot (by simp) (.or right tails)⟩
  | juxtaposed _ right tails => exact (of_derives tails).andNot right p
  | andNot right tails => exact (of_derives tails).andNot (.negation right) p
  | trailingNot hlook tails =>
    have halone := (tails.startsTerm_append_eq_false_iff hr).2 hlook
    rw [hlead (_ ++ rest) (List.suffix_refl _)] at halone
    cases halone

end AreTails

/-- The tokens spell a query in the category, if an expression can end before `rest`. -/
def Category.Spelled (ts rest : List Token) : Category → Prop
  | .term => ∃ q, Derives .term ts q
  | .expression => EndsExpression rest → ∃ q, Derives .expression ts q
  | .tails => EndsExpression rest → AreTails ts

theorem Sentence.spelled {category : Category} {ts : List Token} (h : Sentence category ts)
    {rest : List Token} (hlead : NotsLead (ts ++ rest)) : category.Spelled ts rest := by
  induction h generalizing rest with
  | leaf h => exact ⟨_, .leaf h⟩
  | group _ ih =>
    rw [List.cons_append, List.append_assoc] at hlead
    obtain ⟨q, hq⟩ := ih hlead.of_cons (by simp)
    exact ⟨_, .group hq⟩
  | negation _ ih =>
    obtain ⟨q, hq⟩ := ih hlead.of_cons
    exact ⟨_, .negation hq⟩
  | expression _ _ ihFirst ihTails =>
    intro hr
    rw [List.append_assoc] at hlead
    obtain ⟨p, hp⟩ := ihFirst hlead
    obtain ⟨q, hq⟩ := ihTails hlead.of_append hr p
    exact ⟨q, .expression hp hq⟩
  | done => exact fun _ p => ⟨p, .done⟩
  | and _ _ ihRight ihTails =>
    intro hr p
    rw [List.cons_append, List.append_assoc] at hlead
    obtain ⟨r, right⟩ := ihRight hlead.of_cons
    obtain ⟨q, hq⟩ := ihTails hlead.of_cons.of_append hr (p.and r)
    exact ⟨q, .and right hq⟩
  | or _ _ ihRight ihTails =>
    intro hr p
    rw [List.cons_append, List.append_assoc] at hlead
    obtain ⟨r, right⟩ := ihRight hlead.of_cons
    obtain ⟨q, hq⟩ := ihTails hlead.of_cons.of_append hr (p.or r)
    exact ⟨q, .or right hq⟩
  | juxtaposed _ _ ihRight ihTails =>
    intro hr
    rw [List.append_assoc] at hlead
    obtain ⟨r, right⟩ := ihRight hlead
    exact (ihTails hlead.of_append hr).juxtaposed right
  | andNot _ _ ihRight ihTails =>
    intro hr
    rw [List.cons_append, List.append_assoc] at hlead
    obtain ⟨r, right⟩ := ihRight hlead.of_cons
    exact (ihTails hlead.of_cons.of_append hr).andNot right
  | loneNot _ ihTails =>
    intro hr
    exact (ihTails hlead.of_cons hr).loneNot hr hlead

theorem exists_derives_iff {ts : List Token} :
    (∃ q, Derives .expression ts q) ↔ Sentence .expression ts ∧ NotsLead ts := by
  constructor
  · rintro ⟨q, h⟩
    have hlead := h.notsLead (.inr endsExpression_nil) .nil
    rw [List.append_nil] at hlead
    exact ⟨h.sentence, hlead⟩
  · rintro ⟨h, hlead⟩
    rw [← List.append_nil ts] at hlead
    exact h.spelled hlead endsExpression_nil

/-! ## The parser -/

/-- What the parser accepts is a sentence, and it refuses a sentence only for its depth or for two
`NOT`s in a row with no term behind them. -/
theorem ofTokens_accepts_sentences (ts : List Token) :
    ((∃ q, Query.ofTokens ts = .ok q) → Sentence .expression ts ∧ NotsLead ts) ∧
    (Sentence .expression ts → NotsLead ts →
      (∃ q, Query.ofTokens ts = .ok q) ∨ ∃ position, Query.ofTokens ts = .error (.tooDeep position))
    := by
  constructor
  · rintro ⟨q, h⟩
    exact exists_derives_iff.1 ⟨q, (derives_of_ofTokens_eq_ok h).1⟩
  · intro h hlead
    obtain ⟨q, hd⟩ := exists_derives_iff.2 ⟨h, hlead⟩
    have hanswer := ofTokens_of_derives hd
    split at hanswer
    · exact .inl ⟨q, hanswer⟩
    · exact .inr hanswer

/-- `a NOT NOT b NOT`: the first `NOT` negates the term behind it, which begins with a `NOT`. -/
theorem ofTokens_not_before_not :
    let ts : List Token := [.word ['a'], .not, .not, .word ['b'], .not]
    Sentence .expression ts ∧ NotsLead ts ∧ ∃ q, Query.ofTokens ts = .ok q := by
  have a : Sentence .term [.word ['a']] := .leaf (q := .term ['a']) rfl
  have b : Sentence .term [.word ['b']] := .leaf (q := .term ['b']) rfl
  have h : Sentence .expression [.word ['a'], .not, .not, .word ['b'], .not] :=
    .expression a (.loneNot (.andNot b (.loneNot .done)))
  have hlead : NotsLead [.word ['a'], .not, .not, .word ['b'], .not] := by
    have hb : NotsLead [.word ['b'], .not] := (NotsLead.nil.cons_not nofun).cons nofun
    have hnot : NotsLead [.not, .word ['b'], .not] := hb.cons_not nofun
    refine (hnot.cons_not ?_).cons nofun
    rintro _ ⟨⟩
    rfl
  refine ⟨h, hlead, ((ofTokens_accepts_sentences _).2 h hlead).resolve_right ?_⟩
  rintro ⟨position, herror⟩
  cbv at herror
  cases herror

/-- `a NOT NOT`: both `NOT`s could stand alone, but the first one is taken to negate a term that
begins with the second one. -/
theorem ofTokens_two_lone_nots :
    let ts : List Token := [.word ['a'], .not, .not]
    Sentence .expression ts ∧ Query.ofTokens ts = .error .unexpectedEnd := by
  refine ⟨?_, by cbv⟩
  have a : Sentence .term [.word ['a']] := .leaf (q := .term ['a']) rfl
  exact .expression a (.loneNot (.loneNot .done))

end DocumentSearch
