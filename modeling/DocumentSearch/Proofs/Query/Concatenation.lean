import DocumentSearch.Proofs.Query.Token
import Mathlib

/-!
# Texts put together

White space or a parenthesis between two texts keeps them apart: each text is cut into tokens as if
it stood alone, and a phrase that the second one leaves open is reported where it opens in the
whole. So tokens can be written with blanks between them and read again, whatever they are.

Results:

* `tokenize_append_break`: the tokens, or the error, of two texts with a break between them.
* `tokenize_spaced`: tokens that were read are read again from their own texts.
-/

namespace DocumentSearch

open Text

/-! ## Breaks -/

/-- The tokens of a break: a parenthesis stands for itself, white space for nothing. -/
def breakTokens (c : Char) : List Token :=
  if c = '(' then [.openParen] else if c = ')' then [.closeParen] else []

theorem breakTokens_of_isWhiteSpace {c : Char} (h : isWhiteSpace c = true) :
    breakTokens c = [] := by
  have ho : c ≠ '(' := by
    rintro rfl
    exact absurd h (by decide)
  have hcl : c ≠ ')' := by
    rintro rfl
    exact absurd h (by decide)
  rw [breakTokens, if_neg ho, if_neg hcl]

theorem IsBreak.lexeme {c : Char} (hc : IsBreak c) (rest : Text) :
    Lexeme [c] rest (breakTokens c) := by
  rcases isBreak_iff.1 hc with hwhite | rfl | rfl
  · rw [breakTokens_of_isWhiteSpace hwhite]
    exact .blank hwhite
  · exact .openParen
  · exact .closeParen

section Break

variable {c : Char} {t : Text}

theorem Tokens.behindBreak (hc : IsBreak c) {ts : List Token} (h : Tokens t ts) :
    Tokens (c :: t) (breakTokens c ++ ts) := .cons (hc.lexeme t) h

theorem Unclosed.behindBreak (hc : IsBreak c) {offset : Nat} (h : Unclosed t offset) :
    Unclosed (c :: t) (utf8Length [c] + offset) := .cons (hc.lexeme t) h

end Break

/-- Two texts with white space or a parenthesis between them have the tokens of the first, the
parenthesis and the tokens of the second. If a phrase of the second text is never closed, that is
what is wrong with the whole, and its place counts from the beginning of the first text. -/
theorem tokenize_append_break {a b : Text} {ts : List Token} (ha : tokenize a = .ok ts) {c : Char}
    (hc : isWhiteSpace c = true ∨ c = '(' ∨ c = ')') :
    (∀ us, tokenize b = .ok us → tokenize (a ++ c :: b) = .ok (ts ++ breakTokens c ++ us)) ∧
    ∀ e, tokenize b = .error e → ∃ position, e = .unterminatedPhrase position ∧
      tokenize (a ++ c :: b) =
        .error (.unterminatedPhrase (position + utf8Length (a ++ [c]))) := by
  have hbreak : IsBreak c := isBreak_iff.2 hc
  have htokens : Tokens a ts := tokenize_eq_ok_iff.1 ha
  constructor
  · intro us hb
    rw [tokenize_eq_ok_iff] at hb ⊢
    rw [List.append_assoc]
    exact htokens.append hbreak (hb.behindBreak hbreak)
  · intro e hb
    obtain ⟨position, hunclosed, rfl⟩ := tokenize_eq_error_iff.1 hb
    refine ⟨position, rfl, tokenize_eq_error_iff.2 ⟨_, ?_, rfl⟩⟩
    rw [utf8Length_append, Nat.add_comm, Nat.add_assoc]
    exact htokens.append_unclosed hbreak (hunclosed.behindBreak hbreak)

/-- The run before the blank names no field for the quote behind it, which is left open at the tenth
byte. -/
theorem tokenize_append_break_open_phrase :
    tokenize "été:".toList = .ok [.word "été:".toList] ∧
      tokenize "\"x (".toList = .error (.unterminatedPhrase 0) ∧
      tokenize "été:\u3000\"x (".toList = .error (.unterminatedPhrase 9) := by
  have ha : tokenize "été:".toList = .ok [.word "été:".toList] := by cbv
  have hb : tokenize "\"x (".toList = .error (.unterminatedPhrase 0) := by cbv
  obtain ⟨position, he, h⟩ := (tokenize_append_break ha (c := '\u3000') (.inl (by decide))).2 _ hb
  cases he
  exact ⟨ha, hb, h⟩

/-! ## Tokens with blanks between them -/

/-- The tokens as text, with a blank between any two of them. -/
def spaced (ts : List Token) : Text := [' '].intercalate (ts.map Token.text)

theorem spaced_cons_cons (token next : Token) (ts : List Token) :
    spaced (token :: next :: ts) = token.text ++ ' ' :: spaced (next :: ts) := by
  simp [spaced, List.intercalate_cons_cons]

theorem tokens_spaced {ts : List Token} (h : ∀ token ∈ ts, token.IsReadable) :
    Tokens (spaced ts) ts := by
  induction ts with
  | nil => exact .nil
  | cons token ts ih =>
    obtain ⟨htoken, hrest⟩ := List.forall_mem_cons.1 h
    cases ts with
    | nil => simpa [spaced] using htoken.tokens
    | cons next ts =>
      rw [spaced_cons_cons]
      exact htoken.tokens.append isBreak_blank ((ih hrest).blank (by decide))

/-- Tokens that were read are read again from their texts with blanks between them, and each of them
from its own text. So rows of tokens that differ have texts that differ, and so have single
tokens. -/
theorem tokenize_spaced {s : Text} {ts : List Token} (h : tokenize s = .ok ts) :
    tokenize (spaced ts) = .ok ts ∧
    (∀ token ∈ ts, tokenize token.text = .ok [token]) ∧
    ∀ s' ts', tokenize s' = .ok ts' →
      (spaced ts = spaced ts' → ts = ts') ∧
      ∀ token ∈ ts, ∀ token' ∈ ts', token.text = token'.text → token = token' := by
  have hread {s : Text} {ts : List Token} (h : tokenize s = .ok ts) :
      tokenize (spaced ts) = .ok ts ∧ ∀ token ∈ ts, tokenize token.text = .ok [token] := by
    have hreadable := (tokenize_eq_ok_iff.1 h).isReadable
    exact ⟨tokenize_eq_ok_iff.2 (tokens_spaced hreadable),
      fun token htoken => tokenize_eq_ok_iff.2 (hreadable token htoken).tokens⟩
  refine ⟨(hread h).1, (hread h).2, fun s' ts' h' => ⟨fun htexts => ?_, ?_⟩⟩
  · have := (hread h).1
    rw [htexts, (hread h').1] at this
    exact (Except.ok.inj this).symm
  · intro token htoken token' htoken' htexts
    have := (hread h).2 token htoken
    rw [htexts, (hread h').2 token' htoken'] at this
    cases this
    rfl

/-- A distance is written without leading zeros, also where it was left out, up to the greatest one.
A run with a greater number is a word. -/
theorem tokenize_spaced_distances :
    let ts : List Token := [.fuzzy ['x'] 7, .fuzzy ['*'] 1, .openParen,
      .fuzzy ['z'] 0xFFFFFFFFFFFFFFFF, .closeParen, .word "z~18446744073709551616".toList,
      .field ['t'] (.phrase "a b".toList), .field ['t'] (.word "a~1".toList)]
    tokenize "x~007 *~(z~18446744073709551615)z~18446744073709551616\tt:\"a b\"t:a~1".toList =
        .ok ts ∧
      spaced ts =
        "x~7 *~1 ( z~18446744073709551615 ) z~18446744073709551616 t:\"a b\" t:a~1".toList ∧
      tokenize (spaced ts) = .ok ts := by
  intro ts
  have h : tokenize
      "x~007 *~(z~18446744073709551615)z~18446744073709551616\tt:\"a b\"t:a~1".toList =
      .ok ts := by cbv
  exact ⟨h, by decide +kernel, (tokenize_spaced h).1⟩

end DocumentSearch
