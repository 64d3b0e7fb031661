import DocumentSearch.Proofs.Query.Sentence

/-!
# Beginnings of queries

Whether tokens can still become a query is known from what can stand next and from how many groups
are open. Three things can stand next: behind an operator and at the beginning a term has to follow;
behind a term all but nothing is allowed; and a `NOT` behind a term can be the beginning of a term,
or it stands alone.

Results:

* `Derives.leads`: where the tokens of a part lead, from any place.
* `derives_of_follow`: tokens that lead to the end of a query spell one.
* `viable_iff`: the tokens can become a query iff they lead somewhere.
-/

namespace DocumentSearch

/-- The tokens are the beginning of a query, however high: of what the parser would accept if it had
no depth limit, as that is all it refuses of what the grammar derives. -/
def Viable (ts : List Token) : Prop := ∃ us q, Derives .expression (ts ++ us) q

/-! ## Places -/

/-- What can stand next. -/
inductive Next where
  /-- A term and nothing else. -/
  | term
  /-- Whatever stands behind a term. -/
  | tail
  /-- Whatever stands behind a `NOT` that has a term before it. -/
  | operand

/-- Where a reader stands. -/
structure Place where
  next : Next
  /-- How many groups are open. -/
  nested : Nat

/-- Where a query begins. -/
def Place.start : Place := ⟨.term, 0⟩

/-- The place behind a token, if the token can stand there. -/
def Place.step : Place → Token → Option Place
  | ⟨_, n⟩, .openParen => some ⟨.term, n + 1⟩
  | ⟨.term, _⟩, .closeParen | ⟨_, 0⟩, .closeParen => none
  | ⟨_, n + 1⟩, .closeParen => some ⟨.tail, n⟩
  | ⟨.term, _⟩, .and | ⟨.term, _⟩, .or => none
  | ⟨_, n⟩, .and | ⟨_, n⟩, .or => some ⟨.term, n⟩
  | ⟨.tail, n⟩, .not => some ⟨.operand, n⟩
  | ⟨_, n⟩, .not => some ⟨.term, n⟩
  | ⟨_, n⟩, _ => some ⟨.tail, n⟩

/-- The place behind the tokens, if all of them can stand where they stand. -/
def Place.follow (place : Place) (ts : List Token) : Option Place := ts.foldlM step place

namespace Place

@[simp] theorem follow_nil (place : Place) : place.follow [] = some place := rfl

@[simp] theorem follow_cons (place : Place) (token : Token) (ts : List Token) :
    place.follow (token :: ts) = (place.step token).bind fun next => next.follow ts :=
  List.foldlM_cons

@[simp] theorem follow_append (place : Place) (ts us : List Token) :
    place.follow (ts ++ us) = (place.follow ts).bind fun next => next.follow us :=
  List.foldlM_append

@[simp] theorem step_openParen (next : Next) (n : Nat) :
    (mk next n).step .openParen = some ⟨.term, n + 1⟩ := by
  cases next <;> rfl

theorem step_closeParen {next : Next} (h : next ≠ .term) (n : Nat) :
    (mk next (n + 1)).step .closeParen = some ⟨.tail, n⟩ := by
  cases next <;> first | rfl | exact absurd rfl h

theorem step_leaf {token : Token} {q : Query} (h : token.leaf? = some q) (next : Next) (n : Nat) :
    (mk next n).step token = some ⟨.tail, n⟩ := by
  cases token <;> first | rfl | cases h

/-- Where a term can begin, it does not matter what else could have stood there. -/
theorem step_of_startsTerm {token : Token} (h : startsTerm [token] = true) (hnot : token ≠ .not)
    (next next' : Next) (n : Nat) : (mk next n).step token = (mk next' n).step token := by
  cases token <;> cases next <;> cases next' <;> first | rfl | exact absurd rfl hnot | cases h

theorem step_tail_of_not_startsTerm {token : Token} (h : startsTerm [token] = false) (n : Nat) :
    (mk .tail n).step token = (mk .operand n).step token := by
  cases token <;> cases n <;> first | rfl | cases h

theorem step_operand_of_startsTerm {token : Token} (h : startsTerm [token] = true) (n : Nat) :
    (mk .operand n).step token = (mk .term n).step token := by
  cases token <;> first | rfl | cases h

end Place

/-! ## From queries to places -/

/-- The tokens lead to the end of the part, in as many groups as before. -/
def Part.Leads (ts : List Token) : Part → Prop
  | .term => ∀ next n, (Place.mk next n).follow ts = some ⟨.tail, n⟩
  | .expression => ∀ next n, ∃ last, last ≠ .term ∧ (Place.mk next n).follow ts = some ⟨last, n⟩
  | .tails _ => ∀ n, ∃ last, last ≠ .term ∧ (Place.mk .tail n).follow ts = some ⟨last, n⟩

theorem Derives.leads {part : Part} {ts : List Token} {q : Query} (h : Derives part ts q) :
    part.Leads ts := by
  induction h with
  | leaf h =>
    intro next n
    simp [Place.step_leaf h]
  | group _ ih =>
    intro next n
    obtain ⟨last, hlast, hfollow⟩ := ih .term (n + 1)
    simp [hfollow, Place.step_closeParen hlast]
  | negation _ ih =>
    intro next n
    cases next <;> exact ih _ n
  | expression _ _ ihFirst ihTails =>
    intro next n
    obtain ⟨last, hlast, hfollow⟩ := ihTails n
    exact ⟨last, hlast, by simp [ihFirst next n, hfollow]⟩
  | done => exact fun n => ⟨.tail, by simp, rfl⟩
  | and _ _ ihRight ihTails | or _ _ ihRight ihTails =>
    intro n
    obtain ⟨last, hlast, hfollow⟩ := ihTails n
    exact ⟨last, hlast, by simp [Place.step, ihRight .term n, hfollow]⟩
  | juxtaposed _ _ _ ihRight ihTails =>
    intro n
    obtain ⟨last, hlast, hfollow⟩ := ihTails n
    exact ⟨last, hlast, by simp [ihRight .tail n, hfollow]⟩
  | andNot _ _ ihRight ihTails =>
    intro n
    obtain ⟨last, hlast, hfollow⟩ := ihTails n
    exact ⟨last, hlast, by simp [Place.step, ihRight .operand n, hfollow]⟩
  | @trailingNot us _ _ hlook _ ih =>
    intro n
    obtain ⟨last, hlast, hfollow⟩ := ih n
    rcases us with _ | ⟨token, us⟩
    · exact ⟨.operand, by simp, rfl⟩
    · obtain rfl | rfl : token = .and ∨ token = .or := by simpa using hlook
      all_goals exact ⟨last, hlast, hfollow⟩

/-! ## From places to queries -/

/-- The tokens close `n` groups and the query around them. -/
def Closes : Nat → List Token → Prop
  | 0, us => AreTails us
  | n + 1, us => ∃ vs ws, us = vs ++ .closeParen :: ws ∧ AreTails vs ∧ Closes n ws

/-- The tokens complete what is open at the place. -/
def Place.Completes (us : List Token) : Place → Prop
  | ⟨.term, n⟩ => ∃ vs ws q, us = vs ++ ws ∧ Derives .term vs q ∧ Closes n ws
  | ⟨.tail, n⟩ => Closes n us
  | ⟨.operand, n⟩ => Closes n (.not :: us)

namespace AreTails

variable {ts us : List Token} {r : Query}

theorem nil : AreTails [] := fun p => ⟨p, .done⟩

theorem lone : AreTails [.not] := fun p => ⟨p.not, .trailingNot (by simp) .done⟩

theorem and (h : AreTails us) (right : Derives .term ts r) : AreTails (.and :: (ts ++ us)) := by
  intro p
  obtain ⟨q, hq⟩ := h (p.and r)
  exact ⟨q, .and right hq⟩

theorem or (h : AreTails us) (right : Derives .term ts r) : AreTails (.or :: (ts ++ us)) := by
  intro p
  obtain ⟨q, hq⟩ := h (p.or r)
  exact ⟨q, .or right hq⟩

/-- A `NOT` stands alone before an operator. -/
theorem loneNot_operator {token : Token} (h : AreTails (token :: us))
    (hop : token = .and ∨ token = .or) : AreTails (.not :: token :: us) := by
  intro p
  obtain ⟨q, hq⟩ := h p.not
  exact ⟨q, .trailingNot (by simpa using hop) hq⟩

end AreTails

namespace Closes

variable {n : Nat} {ts us : List Token} {q : Query}

/-- What can stand before all tails can stand before what closes groups. -/
theorem prepend (h : Closes n us) (ts : List Token)
    (hts : ∀ us, AreTails us → AreTails (ts ++ us)) : Closes n (ts ++ us) := by
  cases n with
  | zero => exact hts us h
  | succ n =>
    obtain ⟨vs, ws, rfl, hvs, hws⟩ := h
    exact ⟨ts ++ vs, ws, (List.append_assoc ..).symm, hts vs hvs, hws⟩

theorem completes (h : Closes n us) (hts : Derives .term ts q) (next : Next) :
    (Place.mk next n).Completes (ts ++ us) := by
  cases next with
  | term => exact ⟨ts, us, q, rfl, hts, h⟩
  | tail => exact h.prepend ts fun _ hus => hus.juxtaposed hts
  | operand => exact h.prepend (.not :: ts) fun _ hus => hus.andNot hts

end Closes

theorem Place.completes_operator {token : Token} (hop : token = .and ∨ token = .or) {next : Next}
    (hnext : next ≠ .term) {n : Nat} {us : List Token} (h : (mk .term n).Completes us) :
    (mk next n).Completes (token :: us) := by
  obtain ⟨vs, ws, q, rfl, hvs, hws⟩ := h
  have hright : ∀ us, AreTails us → AreTails (token :: (vs ++ us)) := by
    intro us hus
    rcases hop with rfl | rfl
    · exact hus.and hvs
    · exact hus.or hvs
  cases next with
  | term => exact absurd rfl hnext
  | tail => exact hws.prepend (token :: vs) hright
  | operand =>
    refine hws.prepend (.not :: token :: vs) fun us hus => ?_
    exact (hright us hus).loneNot_operator hop

/-- One token before tokens that complete what is open behind it. -/
theorem Place.completes_of_step {place next : Place} {token : Token} {us : List Token}
    (hstep : place.step token = some next) (h : next.Completes us) :
    place.Completes (token :: us) := by
  obtain ⟨expected, n⟩ := place
  cases token with
  | openParen =>
    rw [step_openParen, Option.some.injEq] at hstep
    subst hstep
    obtain ⟨vs, _, p, rfl, hvs, us, ws, rfl, hus, hws⟩ := h
    obtain ⟨q, hq⟩ := hus p
    have hgroup := hws.completes (.group (.expression hvs hq)) expected
    simpa using hgroup
  | closeParen =>
    cases n with
    | zero => cases expected <;> cases hstep
    | succ n =>
      cases expected with
      | term => cases hstep
      | tail =>
        cases hstep
        exact ⟨[], us, rfl, .nil, h⟩
      | operand =>
        cases hstep
        exact ⟨[.not], us, rfl, .lone, h⟩
  | and | or =>
    cases expected with
    | term => cases hstep
    | tail | operand =>
      cases hstep
      exact completes_operator (by simp) (by simp) h
  | not =>
    cases expected with
    | tail =>
      cases hstep
      exact h
    | term | operand =>
      cases hstep
      obtain ⟨vs, ws, q, rfl, hvs, hws⟩ := h
      exact hws.completes (.negation hvs) _
  | phrase _ | field _ _ | fuzzy _ _ | wildcard _ | word _ =>
    obtain rfl : Place.mk .tail n = next := by
      rw [step_leaf rfl] at hstep
      exact Option.some.inj hstep
    exact Closes.completes h (.leaf rfl) expected

theorem Place.completes_of_follow {place : Place} {us : List Token} {last : Next}
    (hlast : last ≠ .term) (h : place.follow us = some ⟨last, 0⟩) : place.Completes us := by
  induction us generalizing place with
  | nil =>
    cases h
    cases last with
    | term => exact absurd rfl hlast
    | tail => exact AreTails.nil
    | operand => exact AreTails.lone
  | cons token us ih =>
    rw [follow_cons, Option.bind_eq_some_iff] at h
    obtain ⟨next, hstep, h⟩ := h
    exact completes_of_step hstep (ih h)

/-- Tokens that lead to the end of a query spell one. -/
theorem derives_of_follow {ts : List Token} {last : Next} (hlast : last ≠ .term)
    (h : Place.start.follow ts = some ⟨last, 0⟩) : ∃ q, Derives .expression ts q := by
  obtain ⟨vs, ws, p, rfl, hvs, hws⟩ := Place.completes_of_follow hlast h
  obtain ⟨q, hq⟩ := hws p
  exact ⟨q, .expression hvs hq⟩

/-! ## Viable beginnings -/

/-- Wherever a reader stands, it is not far from the end of the query: a term that is missing can be
added, and all groups that are open can be closed. -/
theorem Place.exists_follow (place : Place) :
    ∃ us last, last ≠ Next.term ∧ place.follow us = some ⟨last, 0⟩ := by
  have hclose : ∀ n next, next ≠ Next.term →
      ∃ us last, last ≠ Next.term ∧ (mk next n).follow us = some ⟨last, 0⟩ := by
    intro n
    induction n with
    | zero => exact fun next hnext => ⟨[], next, hnext, rfl⟩
    | succ n ih =>
      intro next hnext
      obtain ⟨us, last, hlast, hus⟩ := ih .tail (by simp)
      refine ⟨.closeParen :: us, last, hlast, ?_⟩
      rw [follow_cons, step_closeParen hnext]
      exact hus
  obtain ⟨us, last, hlast, hus⟩ := hclose place.nested .tail (by simp)
  refine ⟨.word ['a'] :: us, last, hlast, ?_⟩
  rw [follow_cons, step_leaf rfl]
  exact hus

/-- The tokens can become a query iff they lead somewhere. -/
theorem viable_iff {ts : List Token} : Viable ts ↔ (Place.start.follow ts).isSome = true := by
  constructor
  · rintro ⟨us, q, h⟩
    obtain ⟨last, -, hfollow⟩ := h.leads .term 0
    rw [Place.follow_append, Option.bind_eq_some_iff] at hfollow
    obtain ⟨place, hplace, -⟩ := hfollow
    rw [Place.start, hplace]
    rfl
  · intro h
    obtain ⟨place, hplace⟩ := Option.isSome_iff_exists.1 h
    obtain ⟨us, last, hlast, hus⟩ := place.exists_follow
    refine ⟨us, derives_of_follow hlast ?_⟩
    rw [Place.follow_append, hplace]
    exact hus

end DocumentSearch
