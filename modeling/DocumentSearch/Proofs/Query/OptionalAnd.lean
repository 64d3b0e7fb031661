import DocumentSearch.Proofs.Query.Parser

/-!
# Optional `AND`s

Terms behind each other are joined by `AND`, whether it is written or not, and also before a `NOT`.
So an `AND` can be left out wherever the parser accepts it, in groups and in chains, and the query
stays the same. Only behind a `NOT` it has to stay: such a `NOT` negates what is before it, and
without the `AND` it would negate the term behind it.

Results:

* `Derives.of_omitsAnd`: tokens with an `AND` left out spell the same query.
* `ofTokens_eraseIdx_and`: the parser reads them as the same query.
-/

namespace DocumentSearch

/-! ## Leaving out an `AND` -/

/-- The tokens `us` are `ts` without one `AND` that does not stand right behind a `NOT`. -/
def OmitsAnd (ts us : List Token) : Prop :=
  ∃ before behind, ts = before ++ .and :: behind ∧ us = before ++ behind ∧ ¬ [.not] <:+ before

theorem omitsAnd_eraseIdx {ts : List Token} {i : Nat} (hand : ts[i]? = some .and)
    (hnot : ∀ j, j + 1 = i → ts[j]? ≠ some .not) : OmitsAnd ts (ts.eraseIdx i) := by
  obtain ⟨hi, hget⟩ := List.getElem?_eq_some_iff.1 hand
  refine ⟨ts.take i, ts.drop (i + 1), ?_, List.eraseIdx_eq_take_drop_succ .., ?_⟩
  · rw [← hget, List.getElem_cons_drop, List.take_append_drop]
  · rintro ⟨front, hfront⟩
    have hlength : front.length + 1 = i := by
      have := congrArg List.length hfront
      simp only [List.length_append, List.length_singleton, List.length_take] at this
      omega
    apply hnot _ hlength
    have hlast : (ts.take i)[front.length]? = some .not := by rw [← hfront]; simp
    rwa [List.getElem?_take_of_lt (by omega)] at hlast

namespace OmitsAnd

variable {token : Token} {ts us vs : List Token}

theorem ne_nil (h : OmitsAnd ts us) : ts ≠ [] := by
  obtain ⟨before, behind, rfl, -, -⟩ := h
  simp

theorem of_cons (h : OmitsAnd (token :: ts) vs) :
    token = .and ∧ vs = ts ∨ ∃ us, vs = token :: us ∧ OmitsAnd ts us := by
  obtain ⟨before, behind, hts, rfl, hnot⟩ := h
  rcases List.cons_eq_append_iff.1 hts with ⟨rfl, heq⟩ | ⟨before, rfl, rfl⟩
  · cases heq
    exact .inl ⟨rfl, rfl⟩
  · refine .inr ⟨before ++ behind, rfl, before, behind, rfl, rfl, fun hsuffix => hnot ?_⟩
    exact hsuffix.trans (List.suffix_cons token before)

/-- A `NOT` keeps the token behind it. -/
theorem of_cons_not (h : OmitsAnd (.not :: ts) vs) :
    ∃ us, vs = .not :: us ∧ OmitsAnd ts us ∧ us.head? = ts.head? := by
  obtain ⟨before, behind, hts, rfl, hnot⟩ := h
  rcases List.cons_eq_append_iff.1 hts with ⟨rfl, heq⟩ | ⟨before, rfl, rfl⟩
  · cases heq
  · cases before with
    | nil => exact absurd (List.suffix_refl _) hnot
    | cons next before =>
      refine ⟨_, rfl, ⟨next :: before, behind, rfl, rfl, fun hsuffix => hnot ?_⟩, rfl⟩
      exact hsuffix.trans (List.suffix_cons ..)

theorem of_append (h : OmitsAnd (ts ++ us) vs) :
    (∃ ts', vs = ts' ++ us ∧ OmitsAnd ts ts') ∨ ∃ us', vs = ts ++ us' ∧ OmitsAnd us us' := by
  obtain ⟨before, behind, hts, rfl, hnot⟩ := h
  rcases List.append_eq_append_iff.1 hts with ⟨front, rfl, rfl⟩ | ⟨back, rfl, hback⟩
  · refine .inr ⟨_, List.append_assoc .., front, behind, rfl, rfl, fun hsuffix => hnot ?_⟩
    exact hsuffix.trans (List.suffix_append ts front)
  · rcases List.cons_eq_append_iff.1 hback with ⟨rfl, rfl⟩ | ⟨back, rfl, rfl⟩
    · exact .inr ⟨behind, by simp, [], behind, rfl, rfl, by simp⟩
    · exact .inl ⟨_, (List.append_assoc ..).symm, before, back, rfl, rfl, hnot⟩

end OmitsAnd

/-! ## Queries -/

/-- Tokens with an `AND` left out spell the same query. -/
theorem Derives.of_omitsAnd {part : Part} {ts us : List Token} {q : Query} (h : Derives part ts q)
    (hus : OmitsAnd ts us) : Derives part us q := by
  induction h generalizing us with
  | leaf hleaf =>
    rcases hus.of_cons with ⟨rfl, -⟩ | ⟨_, -, hnil⟩
    · cases hleaf
    · exact absurd rfl hnil.ne_nil
  | group inner ih =>
    rcases hus.of_cons with ⟨heq, -⟩ | ⟨ws, rfl, hws⟩
    · cases heq
    · rcases hws.of_append with ⟨ts', rfl, hts⟩ | ⟨close, rfl, hclose⟩
      · exact .group (ih hts)
      · rcases hclose.of_cons with ⟨heq, -⟩ | ⟨_, -, hnil⟩
        · cases heq
        · exact absurd rfl hnil.ne_nil
  | negation inner ih =>
    obtain ⟨ws, rfl, hws, -⟩ := hus.of_cons_not
    exact .negation (ih hws)
  | expression first tails ihFirst ihTails =>
    rcases hus.of_append with ⟨ts', rfl, hts⟩ | ⟨us', rfl, hus'⟩
    · exact .expression (ihFirst hts) tails
    · exact .expression first (ihTails hus')
  | done => exact absurd rfl hus.ne_nil
  | and right tails ihRight ihTails =>
    rcases hus.of_cons with ⟨-, rfl⟩ | ⟨ws, rfl, hws⟩
    · exact right.joined tails
    · rcases hws.of_append with ⟨ts', rfl, hts⟩ | ⟨us', rfl, hus'⟩
      · exact .and (ihRight hts) tails
      · exact .and right (ihTails hus')
  | or right tails ihRight ihTails =>
    rcases hus.of_cons with ⟨heq, -⟩ | ⟨ws, rfl, hws⟩
    · cases heq
    · rcases hws.of_append with ⟨ts', rfl, hts⟩ | ⟨us', rfl, hus'⟩
      · exact .or (ihRight hts) tails
      · exact .or right (ihTails hus')
  | juxtaposed hnot right tails ihRight ihTails =>
    rcases hus.of_append with ⟨ts', rfl, hts⟩ | ⟨us', rfl, hus'⟩
    · exact (ihRight hts).joined tails
    · exact right.joined (ihTails hus')
  | andNot right tails ihRight ihTails =>
    obtain ⟨ws, rfl, hws, -⟩ := hus.of_cons_not
    rcases hws.of_append with ⟨ts', rfl, hts⟩ | ⟨us', rfl, hus'⟩
    · exact .andNot (ihRight hts) tails
    · exact .andNot right (ihTails hus')
  | trailingNot hlook tails ihTails =>
    obtain ⟨ws, rfl, hws, hhead⟩ := hus.of_cons_not
    -- the `NOT` still stands alone, as what it stands before is kept
    exact .trailingNot (hhead ▸ hlook) (ihTails hws)

/-- An `AND` that the parser accepts, and that does not stand right behind a `NOT`, can be left out:
the parser accepts the tokens without it and gives the same query. -/
theorem ofTokens_eraseIdx_and {ts : List Token} {q : Query} (h : Query.ofTokens ts = .ok q)
    {i : Nat} (hand : ts[i]? = some .and) (hnot : ∀ j, j + 1 = i → ts[j]? ≠ some .not) :
    Query.ofTokens (ts.eraseIdx i) = .ok q := by
  obtain ⟨hderives, hheight⟩ := derives_of_ofTokens_eq_ok h
  have hanswer := ofTokens_of_derives (hderives.of_omitsAnd (omitsAnd_eraseIdx hand hnot))
  rwa [if_pos hheight] at hanswer

/-- `( a NOT AND b AND NOT c )` without its second `AND`, which stands before a `NOT`. -/
theorem ofTokens_eraseIdx_and_before_not :
    let a : Token := .word ['a']
    let b : Token := .word ['b']
    let c : Token := .word ['c']
    let ts := [.openParen, a, .not, .and, b, .and, .not, c, .closeParen]
    let q := (((Query.term ['a']).not.and (.term ['b'])).and (Query.term ['c']).not).group
    Query.ofTokens ts = .ok q ∧ ts[5]? = some .and ∧ (∀ j, j + 1 = 5 → ts[j]? ≠ some .not) ∧
      Query.ofTokens [.openParen, a, .not, .and, b, .not, c, .closeParen] = .ok q := by
  intro a b c ts q
  have h : Query.ofTokens ts = .ok q := by cbv
  have hnot : ∀ j, j + 1 = 5 → ts[j]? ≠ some .not := by
    rintro j hj
    obtain rfl : j = 4 := by omega
    decide
  have hand : ts[5]? = some .and := rfl
  exact ⟨h, hand, hnot, ofTokens_eraseIdx_and h hand hnot⟩

/-- Behind a `NOT` the `AND` has to stay: without it the `NOT` takes the term behind it. -/
example :
    let a : Query := .term ['a']
    let b : Query := .term ['b']
    Query.ofTokens [.word ['a'], .not, .and, .word ['b']] = .ok (a.not.and b) ∧
      Query.ofTokens [.word ['a'], .not, .word ['b']] = .ok (a.and b.not) := by
  constructor <;> cbv

end DocumentSearch
