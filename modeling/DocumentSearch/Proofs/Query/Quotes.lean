import DocumentSearch.Proofs.Query.Lexeme
import Mathlib.Algebra.Ring.Parity

/-!
# Quotes

Quotes pair up from left to right, whatever else the text is made of: one opens a phrase and the
next one closes it, no matter whether the phrase stands alone or behind a run that names its field,
and no quote is left inside a run. So a text can be read iff the number of its quotes is even, and
otherwise its last quote is the one that is never closed.

Results:

* `Tokens.even_count_quote`: a text that is read has an even number of quotes.
* `Unclosed.count_quote`: otherwise the number is odd, and the last quote is not closed.
* `tokenize_eq_error_iff_odd_quotes`: which texts are refused, and where.
-/

namespace DocumentSearch

open Text

/-! ## Texts that are read -/

theorem count_quote_eq_zero_of_run {run : Text} (h : ∀ c ∈ run, endsRun c = false) :
    run.count '"' = 0 := by
  rw [List.count_eq_zero]
  intro hquote
  exact absurd (h '"' hquote) (by decide)

theorem count_quote_quoted {words : Text} (h : '"' ∉ words) :
    ('"' :: (words ++ ['"'])).count '"' = 2 := by
  rw [List.count_cons_self, List.count_append, List.count_eq_zero.2 h]
  rfl

/-- A piece has no quotes, or a quote at each end of its phrase. -/
theorem Lexeme.even_count_quote {used rest : Text} {ts : List Token} (h : Lexeme used rest ts) :
    Even (used.count '"') := by
  cases h with
  | blank hwhite =>
    rw [List.count_eq_zero.2]
    · exact Even.zero
    · rintro hquote
      obtain rfl := List.mem_singleton.1 hquote
      exact absurd hwhite (by decide)
  | openParen | closeParen => exact Even.zero
  | phrase hwords =>
    rw [count_quote_quoted hwords]
    exact even_two
  | fieldPhrase hrun _ hwords =>
    rw [List.count_append, count_quote_eq_zero_of_run hrun, count_quote_quoted hwords]
    exact even_two
  | run _ hrun _ _ =>
    rw [count_quote_eq_zero_of_run hrun]
    exact Even.zero

theorem Tokens.even_count_quote {t : Text} {ts : List Token} (h : Tokens t ts) :
    Even (t.count '"') := by
  induction h with
  | nil => exact Even.zero
  | cons hused _ ih =>
    rw [List.count_append]
    exact hused.even_count_quote.add ih

/-! ## Texts that are refused -/

/-- The last quote of the text stands `offset` bytes behind its beginning. -/
def LastQuote (t : Text) (offset : Nat) : Prop :=
  ∃ before behind, t = before ++ '"' :: behind ∧ '"' ∉ behind ∧ offset = utf8Length before

namespace LastQuote

variable {t : Text} {offset offset' : Nat}

theorem prepend (h : LastQuote t offset) (s : Text) :
    LastQuote (s ++ t) (utf8Length s + offset) := by
  obtain ⟨before, behind, rfl, hbehind, rfl⟩ := h
  exact ⟨s ++ before, behind, (List.append_assoc ..).symm, hbehind, (utf8Length_append ..).symm⟩

theorem unique (h : LastQuote t offset) (h' : LastQuote t offset') : offset = offset' := by
  obtain ⟨before, behind, ht, hbehind, rfl⟩ := h
  obtain ⟨before', behind', ht', hbehind', rfl⟩ := h'
  have hsplit := splitLast_eq_some_iff.2 ⟨ht, hbehind⟩
  rw [splitLast_eq_some_iff.2 ⟨ht', hbehind'⟩] at hsplit
  cases hsplit
  rfl

end LastQuote

theorem OpenPhrase.count_quote {t : Text} {offset : Nat} (h : OpenPhrase t offset) :
    t.count '"' = 1 ∧ LastQuote t offset := by
  cases h with
  | phrase hwords =>
    refine ⟨?_, [], _, rfl, hwords, rfl⟩
    rw [List.count_cons_self, List.count_eq_zero.2 hwords]
  | fieldPhrase hrun _ hwords =>
    refine ⟨?_, _, _, rfl, hwords, rfl⟩
    rw [List.count_append, count_quote_eq_zero_of_run hrun, List.count_cons_self,
      List.count_eq_zero.2 hwords]

theorem Unclosed.count_quote {t : Text} {offset : Nat} (h : Unclosed t offset) :
    Odd (t.count '"') ∧ LastQuote t offset := by
  induction h with
  | here h =>
    obtain ⟨hcount, hlast⟩ := h.count_quote
    rw [hcount]
    exact ⟨odd_one, hlast⟩
  | cons hused _ ih =>
    rw [List.count_append]
    exact ⟨hused.even_count_quote.add_odd ih.1, ih.2.prepend _⟩

theorem odd_count_quote_iff {t : Text} : Odd (t.count '"') ↔ ∃ offset, Unclosed t offset := by
  constructor
  · intro hodd
    rcases tokens_or_unclosed t with ⟨ts, htokens⟩ | hunclosed
    · exact absurd htokens.even_count_quote (Nat.not_even_iff_odd.2 hodd)
    · exact hunclosed
  · rintro ⟨offset, hunclosed⟩
    exact hunclosed.count_quote.1

/-- A text is refused iff the number of its quotes is odd. It is refused for a phrase that is never
closed, which the last quote of the text opens. -/
theorem tokenize_eq_error_iff_odd_quotes (t : Text) :
    ((∃ e, tokenize t = .error e) ↔ Odd (t.count '"')) ∧
    ∀ e, tokenize t = .error e ↔
      Odd (t.count '"') ∧ ∃ offset, LastQuote t offset ∧ e = .unterminatedPhrase offset := by
  constructor
  · rw [odd_count_quote_iff]
    constructor
    · rintro ⟨e, he⟩
      obtain ⟨offset, hunclosed, -⟩ := tokenize_eq_error_iff.1 he
      exact ⟨offset, hunclosed⟩
    · rintro ⟨offset, hunclosed⟩
      exact ⟨_, tokenize_eq_error_iff.2 ⟨offset, hunclosed, rfl⟩⟩
  · intro e
    rw [tokenize_eq_error_iff]
    constructor
    · rintro ⟨offset, hunclosed, rfl⟩
      obtain ⟨hodd, hlast⟩ := hunclosed.count_quote
      exact ⟨hodd, offset, hlast, rfl⟩
    · rintro ⟨hodd, offset, hlast, rfl⟩
      obtain ⟨offset', hunclosed⟩ := odd_count_quote_iff.1 hodd
      obtain rfl : offset' = offset := hunclosed.count_quote.2.unique hlast
      exact ⟨offset', hunclosed, rfl⟩

/-- Of three quotes the last one, which stands behind a name, is not closed. -/
example : tokenize "é\" \"title:\"x (".toList = .error (.unterminatedPhrase 11) := by cbv

end DocumentSearch
