import DocumentSearch.Proofs.Query.Viable
import Mathlib

/-!
# Where the parser fails

An error of the parser stands where the query can no longer be saved, or at the end, if it still can
be. A token is refused for standing where it cannot stand: what is before it is the beginning of a
query, and with it there is no way on. A term or a parenthesis that is missing at the end can be
added. The group whose parenthesis is missing is the last one that is open.

Results:

* `Balanced.unique`: which parenthesis closes a group.
* `readings_locate`: what the errors of the readers say.
* `error_of_ofTokens`: what the errors of the parser say.
-/

namespace DocumentSearch

/-! ## Groups -/

/-- Every parenthesis in the tokens has its partner. -/
inductive Balanced : List Token → Prop where
  | nil : Balanced []
  | token {token : Token} {ts : List Token} (hopen : token ≠ .openParen)
      (hclose : token ≠ .closeParen) (rest : Balanced ts) : Balanced (token :: ts)
  | group {ts us : List Token} (inner : Balanced ts) (rest : Balanced us) :
      Balanced (.openParen :: (ts ++ .closeParen :: us))

/-- A closing parenthesis in the tokens is the partner of an opening one just before them. -/
def IsClosed (ts : List Token) : Prop :=
  ∃ inner rest, ts = inner ++ .closeParen :: rest ∧ Balanced inner

theorem IsClosed.append {ts : List Token} (h : IsClosed ts) (us : List Token) :
    IsClosed (ts ++ us) := by
  obtain ⟨inner, rest, rfl, hinner⟩ := h
  exact ⟨inner, rest ++ us, by simp, hinner⟩

namespace Balanced

variable {ts us : List Token}

theorem append (h : Balanced ts) (h' : Balanced us) : Balanced (ts ++ us) := by
  induction h with
  | nil => exact h'
  | token hopen hclose _ ih => exact .token hopen hclose ih
  | group inner _ _ ih =>
    rw [List.cons_append, List.append_assoc, List.cons_append]
    exact .group inner ih

/-- A closing parenthesis behind balanced tokens is the first without a partner. -/
theorem unique (h : Balanced ts) {ts' vs vs' : List Token} (h' : Balanced ts')
    (e : ts ++ .closeParen :: vs = ts' ++ .closeParen :: vs') : ts = ts' ∧ vs = vs' := by
  induction h generalizing ts' vs vs' with
  | nil =>
    cases h' with
    | nil => exact ⟨rfl, (List.cons.inj e).2⟩
    | token _ hclose _ => exact absurd (List.cons.inj e).1.symm hclose
    | group _ _ => cases (List.cons.inj e).1
  | token hopen hclose _ ih =>
    cases h' with
    | nil => exact absurd (List.cons.inj e).1 hclose
    | token _ _ rest' =>
      rw [List.cons_append, List.cons_append, List.cons.injEq] at e
      obtain ⟨rfl, e⟩ := e
      obtain ⟨rfl, rfl⟩ := ih rest' e
      exact ⟨rfl, rfl⟩
    | group _ _ => exact absurd (List.cons.inj e).1 hopen
  | group _ _ ihInner ihRest =>
    cases h' with
    | nil => cases (List.cons.inj e).1
    | token hopen _ _ => exact absurd (List.cons.inj e).1.symm hopen
    | group inner' rest' =>
      simp only [List.cons_append, List.append_assoc, List.cons.injEq, true_and] at e
      obtain ⟨rfl, hrest⟩ := ihInner inner' e
      obtain ⟨rfl, rfl⟩ := ihRest rest' hrest
      exact ⟨rfl, rfl⟩

theorem not_isClosed (h : Balanced ts) : ¬ IsClosed ts := by
  rintro ⟨inner, rest, rfl, hinner⟩
  have hall : inner ++ .closeParen :: rest ++ [.closeParen] =
      inner ++ .closeParen :: (rest ++ [.closeParen]) := by simp
  obtain ⟨hself, -⟩ := h.unique hinner hall
  simp at hself

/-- An opening parenthesis in balanced tokens is closed in them. -/
theorem isClosed (h : Balanced ts) {before rest : List Token}
    (e : ts = before ++ .openParen :: rest) : IsClosed rest := by
  induction h generalizing before rest with
  | nil => simp at e
  | token hopen _ _ ih =>
    rcases List.cons_eq_append_iff.1 e with ⟨-, e⟩ | ⟨before, -, e⟩
    · exact absurd (List.cons.inj e).1.symm hopen
    · exact ih e
  | @group ts us inner _ ihInner ihRest =>
    rcases List.cons_eq_append_iff.1 e with ⟨-, e⟩ | ⟨before, -, e⟩
    · obtain ⟨-, rfl⟩ := List.cons.inj e
      exact ⟨ts, us, rfl, inner⟩
    · rcases List.append_eq_append_iff.1 e with ⟨as, -, e⟩ | ⟨as, hts, e⟩
      · rcases List.cons_eq_append_iff.1 e with ⟨-, e⟩ | ⟨as, -, e⟩
        · cases (List.cons.inj e).1
        · exact ihRest e
      · rcases List.cons_eq_append_iff.1 e with ⟨-, e⟩ | ⟨as, rfl, rfl⟩
        · cases (List.cons.inj e).1
        · exact (ihInner hts).append _

theorem isClosed_drop (h : Balanced ts) {i : Nat} (hi : ts[i]? = some .openParen) :
    IsClosed (ts.drop (i + 1)) := by
  obtain ⟨hlt, hopen⟩ := List.getElem?_eq_some_iff.1 hi
  apply h.isClosed
  rw [← hopen, ← List.drop_eq_getElem_cons hlt]
  exact (List.take_append_drop i ts).symm

end Balanced

theorem Derives.balanced {part : Part} {ts : List Token} {q : Query} (h : Derives part ts q) :
    Balanced ts := by
  induction h with
  | @leaf token _ h =>
    refine .token ?_ ?_ .nil
    all_goals
      rintro rfl
      cases h
  | group _ ih => exact .group ih .nil
  | negation _ ih | trailingNot _ _ ih => exact .token (by simp) (by simp) ih
  | expression _ _ ih ih' | juxtaposed _ _ _ ih ih' => exact ih.append ih'
  | done => exact .nil
  | and _ _ ih ih' | or _ _ ih ih' | andNot _ _ ih ih' =>
    exact .token (by simp) (by simp) (ih.append ih')

/-! ## What errors say -/

/-- The token is the one at the position, and it stands before `rest`. -/
structure Stands (size : Nat) (ts before : List Token) (token : Token) (rest : List Token)
    (position : Nat) : Prop where
  eq_append : ts = before ++ token :: rest
  position_eq : position = size - (rest.length + 1)

theorem Stands.prepend {size position : Nat} {ts before rest : List Token} {token : Token}
    (h : Stands size ts before token rest position) (us : List Token) :
    Stands size (us ++ ts) (us ++ before) token rest position := by
  obtain ⟨rfl, rfl⟩ := h
  exact ⟨(List.append_assoc ..).symm, rfl⟩

/-- What an error says about the tokens that a reader did not get past, from a place on. `size` is
the number of all tokens of the query. -/
def Located (size : Nat) (place : Place) (ts : List Token) : QueryError → Prop
  | .unexpectedEnd => (place.follow ts).isSome = true
  | .unmatchedParen position => (place.follow ts).isSome = true ∧
      ∃ before rest, Stands size ts before .openParen rest position ∧ Balanced rest
  | .unexpectedToken found position =>
      ∃ before rest last, Stands size ts before found rest position ∧
        place.follow before = some last ∧ last.step found = none
  | .unterminatedPhrase _ | .tooDeep _ => True

namespace Located

variable {size : Nat} {place place' : Place} {ts us : List Token} {error : QueryError}

theorem prepend (h : Located size place' ts error) (us : List Token)
    (hus : place.follow us = some place') : Located size place (us ++ ts) error := by
  cases error with
  | unexpectedEnd =>
    show (place.follow (us ++ ts)).isSome = true
    rw [Place.follow_append, hus]
    exact h
  | unmatchedParen position =>
    obtain ⟨hfollow, before, rest, hstands, hrest⟩ := h
    refine ⟨?_, us ++ before, rest, hstands.prepend us, hrest⟩
    rw [Place.follow_append, hus]
    exact hfollow
  | unexpectedToken found position =>
    obtain ⟨before, rest, last, hstands, hbefore, hstep⟩ := h
    refine ⟨us ++ before, rest, last, hstands.prepend us, ?_, hstep⟩
    rw [Place.follow_append, hus]
    exact hbefore
  | unterminatedPhrase | tooDeep => trivial

/-- Places at which the next token does the same are the same to an error. -/
theorem of_step_eq {token : Token} (h : Located size place (token :: ts) error)
    (hstep : place.step token = place'.step token) : Located size place' (token :: ts) error := by
  have hfollow : ∀ us, place'.follow (token :: us) = place.follow (token :: us) := by
    intro us
    rw [Place.follow_cons, Place.follow_cons, hstep]
  cases error with
  | unexpectedEnd =>
    show (place'.follow (token :: ts)).isSome = true
    rw [hfollow]
    exact h
  | unmatchedParen position =>
    obtain ⟨hall, hstands⟩ := h
    exact ⟨by rwa [hfollow], hstands⟩
  | unexpectedToken found position =>
    obtain ⟨before, rest, last, hstands, hbefore, hlast⟩ := h
    rcases List.cons_eq_append_iff.1 hstands.eq_append with ⟨rfl, heq⟩ | ⟨before, rfl, -⟩
    · obtain ⟨rfl, -⟩ := List.cons.inj heq
      cases hbefore
      exact ⟨[], rest, place', hstands, rfl, hstep ▸ hlast⟩
    · exact ⟨_, rest, last, hstands, by rw [hfollow, hbefore], hlast⟩
  | unterminatedPhrase | tooDeep => trivial

theorem of_startsTerm {n : Nat} (h : Located size ⟨.term, n⟩ ts error)
    (hts : startsTerm ts = true) : Located size ⟨.operand, n⟩ ts error := by
  cases ts with
  | nil => cases hts
  | cons token ts =>
    refine h.of_step_eq (Place.step_operand_of_startsTerm ?_ n).symm
    cases token <;> first | rfl | cases hts

end Located

/-! ## Errors of the readers -/

theorem bind_eq_error_iff {ε α β : Type} {x : Except ε α} {f : α → Except ε β} {error : ε} :
    x >>= f = .error error ↔ x = .error error ∨ ∃ a, x = .ok a ∧ f a = .error error := by
  cases x <;> simp [bind, Except.bind]

theorem of_bind_pure_eq_error {ε α β : Type} {x : Except ε α} {g : α → β} {error : ε}
    (h : (x >>= fun a => pure (g a)) = .error error) : x = .error error := by
  rcases bind_eq_error_iff.1 h with h | ⟨a, -, h⟩
  · exact h
  · cases h

/-- What follows the height of a node fails with an error of its own, or the node is too high. -/
theorem located_of_deepen {α : Type} {size height position : Nat} {f : Nat → Except QueryError α}
    {error : QueryError} {place : Place} {ts : List Token}
    (h : deepen height position >>= f = .error error)
    (hf : f (height + 1) = .error error → Located size place ts error) :
    Located size place ts error := by
  unfold deepen at h
  split at h
  · exact hf h
  · cases h
    trivial

theorem located_of_closeGroup {bound size position n : Nat} {inner : Reading bound}
    {error : QueryError} {ts : List Token} (h : closeGroup position inner = .error error)
    (hposition : position = size - (ts.length + 1))
    (hinner : Spelled .expression ts inner.rest inner.query inner.height)
    (hends : EndsExpression inner.rest) :
    Located size ⟨.term, n⟩ (.openParen :: ts) error := by
  obtain ⟨query, height, rest, fewer⟩ := inner
  unfold closeGroup at h
  split at h
  · refine located_of_deepen h fun h => ?_
    cases h
  · next hnone =>
    cases h
    -- the expression ends with the query, as nothing stands behind it and no group is closed
    obtain rfl : rest = [] := by
      rcases rest with _ | ⟨token, rest⟩
      · rfl
      · obtain rfl : token = .closeParen := by simpa [EndsExpression] using hends
        exact (hnone _ _ _ _ rfl).elim
    obtain ⟨used, rfl, hderives, -, -⟩ := hinner
    rw [List.append_nil] at hposition ⊢
    obtain ⟨last, -, hfollow⟩ := hderives.leads .term (n + 1)
    refine ⟨?_, [], used, ⟨rfl, hposition⟩, hderives.balanced⟩
    rw [Place.follow_cons, Place.step_openParen, Option.bind_some, hfollow]
    rfl

theorem located_of_refused {size position n : Nat} {token : Token} {rest : List Token}
    (hposition : position = size - (rest.length + 1))
    (hstep : (Place.mk .term n).step token = none) :
    Located size ⟨.term, n⟩ (token :: rest) (.unexpectedToken token position) :=
  ⟨[], rest, _, ⟨rfl, hposition⟩, rfl, hstep⟩

/-- An error in a term, or in the tails behind it. -/
theorem located_of_readTerm {bound size nesting n : Nat} {ts : List Token}
    {f : Reading ts.length → Except QueryError (Reading bound)} {error : QueryError} {next : Next}
    (h : readTerm size nesting ts >>= f = .error error)
    (hterm : readTerm size nesting ts = .error error → Located size ⟨next, n⟩ ts error)
    (htails : ∀ right, f right = .error error → Located size ⟨.tail, n⟩ right.rest error) :
    Located size ⟨next, n⟩ ts error := by
  rcases bind_eq_error_iff.1 h with h | ⟨right, hr, h⟩
  · exact hterm h
  · obtain ⟨used, hused, hderives, -, -⟩ := (readings_derive size).1 nesting ts right hr
    rw [hused]
    exact (htails right h).prepend used (hderives.leads next n)

theorem readings_locate (size : Nat) :
    (∀ nesting tokens, ∀ error, readTerm size nesting tokens = .error error →
      ∀ n, Located size ⟨.term, n⟩ tokens error) ∧
    (∀ nesting tokens, ∀ error, readExpression size nesting tokens = .error error →
      ∀ n, Located size ⟨.term, n⟩ tokens error) ∧
    (∀ nesting left height tokens, ∀ error,
      readTails size nesting left height tokens = .error error →
        ∀ n, Located size ⟨.tail, n⟩ tokens error) := by
  apply readTerm.mutual_induct size
  case case1 =>
    intro nesting error h n
    rw [readTerm] at h
    cases h
    rfl
  case case2 | case4 =>
    intro nesting rest hn _ error h n
    rw [readTerm, if_pos hn] at h
    cases h
    trivial
  case case3 =>
    intro nesting rest hn ih error h n
    rw [readTerm, if_neg hn, bind_eq_error_iff] at h
    rcases h with h | ⟨inner, hi, h⟩
    · exact (ih error h (n + 1)).prepend [.openParen] rfl
    · obtain ⟨hinner, hends⟩ := (readings_derive size).2.1 _ _ inner hi
      exact located_of_closeGroup h rfl hinner hends
  case case5 =>
    intro nesting rest hn ih error h n
    rw [readTerm, if_neg hn, bind_eq_error_iff] at h
    rcases h with h | ⟨inner, hi, h⟩
    · exact (ih error h n).prepend [.not] rfl
    · refine located_of_deepen h fun h => ?_
      cases h
  case case6 | case9 | case10 =>
    intro nesting _ rest error h n
    rw [readTerm] at h
    cases h
  case case7 | case8 =>
    intro nesting _ _ rest error h n
    rw [readTerm] at h
    cases h
  case case11 =>
    intro nesting token rest _ _ _ _ _ _ _ error h n
    cases token <;> simp_all [readTerm]
    all_goals
      subst h
      exact located_of_refused rfl rfl
  case case12 =>
    intro nesting tokens ihTerm ihTails error h n
    rw [readExpression] at h
    refine located_of_readTerm h (fun h => ihTerm error h n) fun first h => ?_
    exact ihTails first error (of_bind_pure_eq_error h) n
  case case13 =>
    intro nesting left height error h n
    rw [readTails] at h
    cases h
  case case14 =>
    intro nesting left height rest error h n
    rw [readTails] at h
    cases h
  case case15 | case16 =>
    intro nesting left height rest ihTerm ihTails error h n
    rw [readTails] at h
    suffices hrest : Located size ⟨.term, n⟩ rest error from hrest.prepend [_] rfl
    refine located_of_readTerm h (fun h => ihTerm error h n) fun right h => ?_
    refine located_of_deepen h fun h => ?_
    exact ihTails right _ error (of_bind_pure_eq_error h) n
  case case17 =>
    intro nesting left height rest hstart ihTerm ihTails error h n
    rw [readTails, if_pos hstart] at h
    -- the term that is negated begins with a token that does the same where a term has to follow
    suffices hrest : Located size ⟨.operand, n⟩ rest error from hrest.prepend [.not] rfl
    refine located_of_readTerm h (fun h => ?_) fun right h => ?_
    · exact (ihTerm error h n).of_startsTerm hstart
    · refine located_of_deepen h fun h => located_of_deepen h fun h => ?_
      exact ihTails right _ error (of_bind_pure_eq_error h) n
  case case18 =>
    intro nesting left height rest hstart ihTails error h n
    rw [readTails, if_neg hstart] at h
    -- the token behind a `NOT` that stands alone does the same as if there were no `NOT`
    suffices hrest : Located size ⟨.operand, n⟩ rest error from hrest.prepend [.not] rfl
    refine located_of_deepen h fun h => ?_
    have htails := of_bind_pure_eq_error h
    cases rest with
    | nil =>
      rw [readTails] at htails
      cases htails
    | cons token rest =>
      refine (ihTails _ error htails n).of_step_eq (Place.step_tail_of_not_startsTerm ?_ n)
      cases token <;> simp_all [startsTerm]
  case case19 =>
    intro nesting left height token rest hclose hand hor hnot ihTerm ihTails error h n
    rw [readTails.eq_6 _ _ _ _ _ _ hclose hand hor hnot] at h
    refine located_of_readTerm h (fun h => ?_) fun right h => ?_
    · refine (ihTerm error h n).of_step_eq (Place.step_of_startsTerm ?_ hnot _ _ n)
      cases token <;> simp_all [startsTerm]
    · refine located_of_deepen h fun h => ?_
      exact ihTails right _ error (of_bind_pure_eq_error h) n

/-! ## Errors of the parser -/

theorem located_of_ofTokens {ts : List Token} {error : QueryError}
    (h : Query.ofTokens ts = .error error) : Located ts.length .start ts error := by
  rcases bind_eq_error_iff.1 h with h | ⟨all, ha, h⟩
  · exact (readings_locate ts.length).2.1 0 ts error h 0
  · obtain ⟨⟨used, hused, hderives, -, -⟩, hends⟩ := (readings_derive ts.length).2.1 0 ts all ha
    split at h
    · cases h
    · next token rest hrest =>
      cases h
      obtain rfl : token = .closeParen := by simpa [EndsExpression, hrest] using hends
      obtain ⟨last, -, hfollow⟩ := hderives.leads .term 0
      refine ⟨used, rest, ⟨last, 0⟩, ⟨hrest ▸ hused, rfl⟩, hfollow, ?_⟩
      cases last <;> rfl

namespace Stands

variable {ts before rest : List Token} {token : Token} {position : Nat}

theorem length_eq (h : Stands ts.length ts before token rest position) :
    before.length = position := by
  obtain ⟨rfl, rfl⟩ := h
  rw [List.length_append, List.length_cons]
  omega

theorem getElem?_eq (h : Stands ts.length ts before token rest position) :
    ts[position]? = some token := by
  rw [← h.length_eq, h.eq_append, List.getElem?_append_right (Nat.le_refl _), Nat.sub_self]
  rfl

theorem take_eq (h : Stands ts.length ts before token rest position) :
    ts.take position = before := by
  rw [← h.length_eq, h.eq_append, List.take_left]

theorem take_succ_eq (h : Stands ts.length ts before token rest position) :
    ts.take (position + 1) = before ++ [token] := by
  rw [List.take_add_one, h.take_eq, h.getElem?_eq]
  rfl

theorem drop_succ_eq (h : Stands ts.length ts before token rest position) (n : Nat) :
    ts.drop (position + 1 + n) = rest.drop n := by
  rw [← List.drop_drop, ← h.length_eq, h.eq_append, ← List.drop_drop, List.drop_left]
  rfl

end Stands

/-- What the errors of the parser say. Where a term or a parenthesis is missing at the end, the
tokens are the beginning of a query, and the group that is not closed is the last such group. A
token that is refused is the first with which they are no such beginning. -/
theorem error_of_ofTokens (ts : List Token) :
    (Query.ofTokens ts = .error .unexpectedEnd → Viable ts) ∧
    (∀ position, Query.ofTokens ts = .error (.unmatchedParen position) →
      Viable ts ∧ ts[position]? = some .openParen ∧ ¬ IsClosed (ts.drop (position + 1)) ∧
      ∀ i, position < i → ts[i]? = some .openParen → IsClosed (ts.drop (i + 1))) ∧
    (∀ found position, Query.ofTokens ts = .error (.unexpectedToken found position) →
      ts[position]? = some found ∧ Viable (ts.take position) ∧
      ¬ Viable (ts.take (position + 1))) := by
  refine ⟨fun h => ?_, fun position h => ?_, fun found position h => ?_⟩
  · exact viable_iff.2 (located_of_ofTokens h)
  · obtain ⟨hfollow, before, rest, hstands, hrest⟩ := located_of_ofTokens h
    refine ⟨viable_iff.2 hfollow, hstands.getElem?_eq, ?_, fun i hi hopen => ?_⟩
    · exact hstands.drop_succ_eq 0 ▸ hrest.not_isClosed
    · obtain ⟨n, rfl⟩ := Nat.exists_eq_add_of_le hi
      have hlater : rest[n]? = some .openParen := by
        rw [← hopen, ← List.head?_drop, ← List.head?_drop]
        exact congrArg List.head? (hstands.drop_succ_eq n).symm
      rw [Nat.succ_eq_add_one, Nat.add_assoc, hstands.drop_succ_eq (n + 1)]
      exact hrest.isClosed_drop hlater
  · obtain ⟨before, rest, last, hstands, hbefore, hstep⟩ := located_of_ofTokens h
    refine ⟨hstands.getElem?_eq, ?_, ?_⟩
    · rw [hstands.take_eq, viable_iff, hbefore]
      rfl
    · rw [hstands.take_succ_eq, viable_iff, Place.follow_append, hbefore, Option.bind_some,
        Place.follow_cons, hstep]
      simp

/-- `( a OR`, `( a ( a )` and `a NOT )`: a term is missing, the outer group is not closed, and there
is no group to be closed. -/
theorem error_of_ofTokens_groups :
    let a : Token := .word ['a']
    let ts := [.openParen, a, .openParen, a, .closeParen]
    (Query.ofTokens [.openParen, a, .or] = .error .unexpectedEnd ∧ Viable [.openParen, a, .or]) ∧
    (Query.ofTokens ts = .error (.unmatchedParen 0) ∧ ¬ IsClosed (ts.drop 1) ∧
      IsClosed (ts.drop 3)) ∧
    (Query.ofTokens [a, .not, .closeParen] = .error (.unexpectedToken .closeParen 2) ∧
      Viable [a, .not] ∧ ¬ Viable [a, .not, .closeParen]) := by
  intro a ts
  have hend : Query.ofTokens [.openParen, a, .or] = .error .unexpectedEnd := by cbv
  have hparen : Query.ofTokens ts = .error (.unmatchedParen 0) := by cbv
  have htoken : Query.ofTokens [a, .not, .closeParen] =
      .error (.unexpectedToken .closeParen 2) := by cbv
  obtain ⟨-, -, hopen, hlater⟩ := (error_of_ofTokens ts).2.1 0 hparen
  exact ⟨⟨hend, (error_of_ofTokens _).1 hend⟩,
    ⟨hparen, hopen, hlater 2 (by decide) rfl⟩,
    ⟨htoken, ((error_of_ofTokens _).2.2 _ 2 htoken).2⟩⟩

end DocumentSearch
