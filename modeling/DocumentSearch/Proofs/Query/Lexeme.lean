import DocumentSearch.Query.Tokenizer

/-!
# Lexemes

The pieces that a text is cut into when it is read as tokens. A piece depends on what stands behind
it through one character at most, so a text can be cut at white space and at parentheses, and each
part is read as if it stood alone.

Results:

* `tokenizeAt_append_of_lexeme`: the tokenizer takes one piece after the other.
* `tokens_or_unclosed`: every text is a row of pieces, to its end or to a quote that is never
  closed.
* `tokenizeAt_eq_ok_iff`, `tokenizeAt_eq_error_iff`: the tokens of a text are those of its pieces,
  and the error tells where the quote stands.
* `Tokens.append`, `Tokens.append_unclosed`: texts with white space or a parenthesis between them
  are read one by one.
-/

namespace DocumentSearch

open Text

/-- The piece `used` of a text, in which `rest` stands behind it, and its tokens. -/
inductive Lexeme : Text → Text → List Token → Prop where
  | blank {c : Char} {rest : Text} (h : isWhiteSpace c = true) : Lexeme [c] rest []
  | openParen {rest : Text} : Lexeme ['('] rest [.openParen]
  | closeParen {rest : Text} : Lexeme [')'] rest [.closeParen]
  | phrase {words rest : Text} (h : '"' ∉ words) :
      Lexeme ('"' :: (words ++ ['"'])) rest [.phrase words]
  /-- A run that is one with the phrase behind it. -/
  | fieldPhrase {run name words rest : Text} (hrun : ∀ c ∈ run, endsRun c = false)
      (hname : scopeOfRun? run = some name) (hwords : '"' ∉ words) :
      Lexeme (run ++ '"' :: (words ++ ['"'])) rest [.field name (.phrase words)]
  | run {run rest : Text} (hne : run ≠ []) (hrun : ∀ c ∈ run, endsRun c = false)
      (hrest : ∀ c ∈ rest.head?, endsRun c = true)
      (hscope : scopeOfRun? run = none ∨ rest.head? ≠ some '"') :
      Lexeme run rest [classify run]

/-- The text is a row of pieces with these tokens. -/
inductive Tokens : Text → List Token → Prop where
  | nil : Tokens [] []
  | cons {used rest : Text} {ts us : List Token} (h : Lexeme used rest ts) (tail : Tokens rest us) :
      Tokens (used ++ rest) (ts ++ us)

/-! ## Runs -/

theorem endsRun_eq_false_iff {c : Char} :
    endsRun c = false ↔ isWhiteSpace c = false ∧ c ≠ '(' ∧ c ≠ ')' ∧ c ≠ '"' := by
  simp [endsRun, and_assoc]

theorem runOf_append {run rest : Text} (hrun : ∀ c ∈ run, endsRun c = false)
    (hrest : ∀ c ∈ rest.head?, endsRun c = true) : runOf (run ++ rest) = run := by
  have hnil : rest.takeWhile (!endsRun ·) = [] := by
    cases rest with
    | nil => rfl
    | cons c rest => simp [hrest c rfl]
  rw [runOf, List.takeWhile_append_of_pos (by simpa using hrun), hnil, List.append_nil]

theorem afterRun_append {run rest : Text} (hrun : ∀ c ∈ run, endsRun c = false)
    (hrest : ∀ c ∈ rest.head?, endsRun c = true) : afterRun (run ++ rest) = rest := by
  have h := runOf_append_afterRun (run ++ rest)
  rwa [runOf_append hrun hrest, List.append_cancel_left_eq] at h

theorem endsRun_of_mem_runOf {t : Text} {c : Char} (h : c ∈ runOf t) : endsRun c = false := by
  have := List.all_eq_true.1 (List.all_takeWhile (p := (!endsRun ·)) (l := t)) c h
  simpa using this

theorem endsRun_of_mem_head?_afterRun {t : Text} {c : Char} (h : c ∈ (afterRun t).head?) :
    endsRun c = true := by
  have := List.head?_dropWhile_not (!endsRun ·) t
  rw [afterRun, Option.mem_def] at h
  simpa [h] using this

theorem runOf_cons {c : Char} (hc : endsRun c = false) (t : Text) :
    runOf (c :: t) = c :: runOf t := by
  simp [runOf, hc]

theorem scopedPhrase?_eq_none_iff {run rest : Text} :
    scopedPhrase? run rest = none ↔ scopeOfRun? run = none ∨ rest.head? ≠ some '"' := by
  unfold scopedPhrase?
  split
  · simp
  · next h =>
    cases rest with
    | nil => simp
    | cons c rest =>
      have : c ≠ '"' := by rintro rfl; exact h _ rfl
      simp [this]

theorem scopedPhrase?_eq_some_iff {run rest name inner : Text} :
    scopedPhrase? run rest = some (name, inner) ↔
      scopeOfRun? run = some name ∧ rest = '"' :: inner := by
  unfold scopedPhrase?
  split
  · next inner' => cases scopeOfRun? run <;> simp [eq_comm]
  · next h => simpa using fun _ => fun hrest => h _ hrest

/-! ## The tokenizer -/

theorem isWhiteSpace_marks :
    isWhiteSpace '(' = false ∧ isWhiteSpace ')' = false ∧ isWhiteSpace '"' = false := by decide

theorem utf8Length_quoted (words : Text) :
    utf8Length ('"' :: (words ++ ['"'])) = utf8Length words + 2 := by
  simp [Char.utf8Size]
  omega

theorem splitOnce_quote {words rest : Text} (h : '"' ∉ words) :
    splitOnce '"' (words ++ ['"'] ++ rest) = some (words, rest) :=
  splitOnce_eq_some_iff.2 ⟨List.append_assoc .., h⟩

/-- The tokenizer on a text that begins with a run. -/
theorem tokenizeAt_run {run rest : Text} (hne : run ≠ []) (hrun : ∀ c ∈ run, endsRun c = false)
    (hrest : ∀ c ∈ rest.head?, endsRun c = true) (position : Nat) :
    tokenizeAt position (run ++ rest) =
      match scopedPhrase? run rest with
      | none => (classify run :: ·) <$> tokenizeAt (position + utf8Length run) rest
      | some (name, inner) =>
        match splitOnce '"' inner with
        | none => .error (.unterminatedPhrase (position + utf8Length run))
        | some (words, rest) => (Token.field name (.phrase words) :: ·) <$>
            tokenizeAt (position + utf8Length run + utf8Length words + 2) rest := by
  obtain ⟨c, run, rfl⟩ := List.exists_cons_of_ne_nil hne
  obtain ⟨hc, hrun⟩ := List.forall_mem_cons.1 hrun
  obtain ⟨hw, ho, hcl, hq⟩ := endsRun_eq_false_iff.1 hc
  rw [List.cons_append, tokenizeAt, if_neg (by simp [hw]), if_neg ho, if_neg hcl, if_neg hq]
  dsimp only
  split
  · next hnone =>
    rw [runOf_append hrun hrest, afterRun_append hrun hrest] at hnone ⊢
    rw [hnone]
  · next name inner hsome =>
    rw [runOf_append hrun hrest, afterRun_append hrun hrest] at hsome
    rw [runOf_append hrun hrest, hsome]
    dsimp only
    split
    · next hnone => rw [hnone]
    · next hsome => rw [hsome]

theorem ne_nil_of_scopeOfRun? {run name : Text} (h : scopeOfRun? run = some name) : run ≠ [] := by
  rintro rfl
  cases h

theorem endsRun_quote {t : Text} : ∀ c ∈ ('"' :: t).head?, endsRun c = true := by
  simp; decide

theorem tokenizeAt_append_of_lexeme {used rest : Text} {ts : List Token}
    (h : Lexeme used rest ts) (position : Nat) :
    tokenizeAt position (used ++ rest) =
      (ts ++ ·) <$> tokenizeAt (position + utf8Length used) rest := by
  cases h with
  | blank h => simp [tokenizeAt, h]
  | openParen => simp [tokenizeAt, isWhiteSpace_marks, Char.utf8Size]
  | closeParen => simp [tokenizeAt, isWhiteSpace_marks, Char.utf8Size]
  | phrase h =>
    rw [utf8Length_quoted, List.cons_append, tokenizeAt, if_neg (by simp [isWhiteSpace_marks]),
      if_neg (by decide), if_neg (by decide), if_pos rfl]
    split
    · next hnone => cases (splitOnce_quote h).symm.trans hnone
    · next hsome =>
      cases (splitOnce_quote h).symm.trans hsome
      rfl
  | fieldPhrase hrun hname hwords =>
    rw [utf8Length_append, utf8Length_quoted, List.append_assoc, List.cons_append,
      tokenizeAt_run (ne_nil_of_scopeOfRun? hname) hrun endsRun_quote,
      scopedPhrase?_eq_some_iff.2 ⟨hname, rfl⟩]
    dsimp only
    rw [splitOnce_quote hwords]
    simp [Nat.add_assoc]
  | run hne hrun hrest hscope =>
    rw [tokenizeAt_run hne hrun hrest, scopedPhrase?_eq_none_iff.2 hscope]
    rfl

/-! ## Texts as rows of pieces -/

/-- The text begins with a quote, or with a run that is one with the quote behind it, and the quote
is never closed. It stands `offset` bytes behind the beginning. -/
inductive OpenPhrase : Text → Nat → Prop where
  | phrase {words : Text} (h : '"' ∉ words) : OpenPhrase ('"' :: words) 0
  | fieldPhrase {run name words : Text} (hrun : ∀ c ∈ run, endsRun c = false)
      (hname : scopeOfRun? run = some name) (hwords : '"' ∉ words) :
      OpenPhrase (run ++ '"' :: words) (utf8Length run)

/-- The text is a row of pieces before a quote that is never closed, `offset` bytes behind the
beginning of the text. -/
inductive Unclosed : Text → Nat → Prop where
  | here {t : Text} {offset : Nat} (h : OpenPhrase t offset) : Unclosed t offset
  | cons {used rest : Text} {ts : List Token} {offset : Nat} (h : Lexeme used rest ts)
      (tail : Unclosed rest offset) : Unclosed (used ++ rest) (utf8Length used + offset)

/-- A text begins with a piece, unless it begins with a phrase that is never closed. -/
theorem exists_lexeme_or_openPhrase {t : Text} (hne : t ≠ []) :
    (∃ used rest ts, used ≠ [] ∧ t = used ++ rest ∧ Lexeme used rest ts) ∨
      ∃ offset, OpenPhrase t offset := by
  obtain ⟨c, t, rfl⟩ := List.exists_cons_of_ne_nil hne
  by_cases hends : endsRun c = true
  · simp only [endsRun, Bool.or_eq_true, beq_iff_eq] at hends
    rcases hends with ((hwhite | rfl) | rfl) | rfl
    · exact .inl ⟨[c], t, _, by simp, rfl, .blank hwhite⟩
    · exact .inl ⟨['('], t, _, by simp, rfl, .openParen⟩
    · exact .inl ⟨[')'], t, _, by simp, rfl, .closeParen⟩
    · cases hsplit : splitOnce '"' t with
      | none => exact .inr ⟨0, .phrase (splitOnce_eq_none_iff.1 hsplit)⟩
      | some p =>
        obtain ⟨rfl, hwords⟩ := splitOnce_eq_some_iff.1 hsplit
        exact .inl ⟨_, p.2, _, by simp, by simp, .phrase hwords⟩
  · have hc : endsRun c = false := by simpa using hends
    have hrun : ∀ d ∈ runOf (c :: t), endsRun d = false := fun d => endsRun_of_mem_runOf
    have happend := runOf_append_afterRun (c :: t)
    cases hscope : scopedPhrase? (runOf (c :: t)) (afterRun (c :: t)) with
    | none =>
      refine .inl ⟨_, _, _, by simp [runOf_cons hc], happend.symm, .run (by simp [runOf_cons hc])
        hrun (fun d => endsRun_of_mem_head?_afterRun) (scopedPhrase?_eq_none_iff.1 hscope)⟩
    | some p =>
      obtain ⟨hname, hafter⟩ := scopedPhrase?_eq_some_iff.1 hscope
      rw [hafter] at happend
      rw [← happend]
      cases hsplit : splitOnce '"' p.2 with
      | none => exact .inr ⟨_, .fieldPhrase hrun hname (splitOnce_eq_none_iff.1 hsplit)⟩
      | some q =>
        obtain ⟨hinner, hwords⟩ := splitOnce_eq_some_iff.1 hsplit
        exact .inl ⟨_, q.2, _, by simp, by simp [hinner], .fieldPhrase hrun hname hwords⟩

/-- Every text is a row of pieces to its end or to a quote that is never closed. -/
theorem tokens_or_unclosed (t : Text) : (∃ ts, Tokens t ts) ∨ ∃ offset, Unclosed t offset := by
  induction hn : t.length using Nat.strongRecOn generalizing t with
  | ind n ih =>
    by_cases hnil : t = []
    · rw [hnil]
      exact .inl ⟨[], .nil⟩
    · rcases exists_lexeme_or_openPhrase hnil with ⟨used, rest, ts, hne, rfl, h⟩ | ⟨offset, h⟩
      · have hlt : rest.length < n := by
          have := List.length_pos_iff.2 hne
          rw [← hn, List.length_append]
          omega
        rcases ih _ hlt rest rfl with ⟨us, hrest⟩ | ⟨offset, hrest⟩
        · exact .inl ⟨_, .cons h hrest⟩
        · exact .inr ⟨_, .cons h hrest⟩
      · exact .inr ⟨offset, .here h⟩

theorem Tokens.tokenizeAt_eq_ok {t : Text} {ts : List Token} (h : Tokens t ts) (position : Nat) :
    tokenizeAt position t = .ok ts := by
  induction h generalizing position with
  | nil => rw [tokenizeAt]
  | cons h _ ih =>
    rw [tokenizeAt_append_of_lexeme h, ih]
    rfl

theorem OpenPhrase.tokenizeAt_eq_error {t : Text} {offset : Nat} (h : OpenPhrase t offset)
    (position : Nat) :
    tokenizeAt position t = .error (.unterminatedPhrase (position + offset)) := by
  cases h with
  | phrase h =>
    rw [tokenizeAt, if_neg (by simp [isWhiteSpace_marks]), if_neg (by decide), if_neg (by decide),
      if_pos rfl]
    split
    · rfl
    · next hsome => cases (splitOnce_eq_none_iff.2 h).symm.trans hsome
  | fieldPhrase hrun hname hwords =>
    rw [tokenizeAt_run (ne_nil_of_scopeOfRun? hname) hrun endsRun_quote,
      scopedPhrase?_eq_some_iff.2 ⟨hname, rfl⟩]
    dsimp only
    rw [splitOnce_eq_none_iff.2 hwords]

theorem Unclosed.tokenizeAt_eq_error {t : Text} {offset : Nat} (h : Unclosed t offset)
    (position : Nat) :
    tokenizeAt position t = .error (.unterminatedPhrase (position + offset)) := by
  induction h generalizing position with
  | here h => exact h.tokenizeAt_eq_error position
  | cons h _ ih =>
    rw [tokenizeAt_append_of_lexeme h, ih, Nat.add_assoc]
    rfl

/-- The tokens of a text do not depend on where it begins. -/
theorem tokenizeAt_eq_ok_iff {position : Nat} {t : Text} {ts : List Token} :
    tokenizeAt position t = .ok ts ↔ Tokens t ts := by
  refine ⟨fun h => ?_, fun h => h.tokenizeAt_eq_ok position⟩
  rcases tokens_or_unclosed t with ⟨us, ht⟩ | ⟨offset, ht⟩
  · cases h.symm.trans (ht.tokenizeAt_eq_ok position)
    exact ht
  · cases h.symm.trans (ht.tokenizeAt_eq_error position)

/-- A text has no tokens iff a quote in it is never closed, and the error tells the place of the
quote. -/
theorem tokenizeAt_eq_error_iff {position : Nat} {t : Text} {e : QueryError} :
    tokenizeAt position t = .error e ↔
      ∃ offset, Unclosed t offset ∧ e = .unterminatedPhrase (position + offset) := by
  constructor
  · intro h
    rcases tokens_or_unclosed t with ⟨us, ht⟩ | ⟨offset, ht⟩
    · cases h.symm.trans (ht.tokenizeAt_eq_ok position)
    · cases h.symm.trans (ht.tokenizeAt_eq_error position)
      exact ⟨offset, ht, rfl⟩
  · rintro ⟨offset, ht, rfl⟩
    exact ht.tokenizeAt_eq_error position

theorem tokenize_eq_ok_iff {t : Text} {ts : List Token} : tokenize t = .ok ts ↔ Tokens t ts :=
  tokenizeAt_eq_ok_iff

theorem tokenize_eq_error_iff {t : Text} {e : QueryError} :
    tokenize t = .error e ↔ ∃ offset, Unclosed t offset ∧ e = .unterminatedPhrase offset := by
  simp only [tokenize, tokenizeAt_eq_error_iff, Nat.zero_add]

/-! ## Cutting a text -/

/-- White space and parentheses, at which a text can be cut. -/
def IsBreak (c : Char) : Prop := endsRun c = true ∧ c ≠ '"'

theorem isBreak_iff {c : Char} : IsBreak c ↔ isWhiteSpace c = true ∨ c = '(' ∨ c = ')' := by
  simp only [IsBreak, endsRun, Bool.or_eq_true, beq_iff_eq, or_assoc]
  constructor
  · rintro ⟨hwhite | ho | hcl | hq, hne⟩
    · exact .inl hwhite
    · exact .inr (.inl ho)
    · exact .inr (.inr hcl)
    · exact absurd hq hne
  · rintro (hwhite | rfl | rfl)
    · refine ⟨.inl hwhite, ?_⟩
      rintro rfl
      exact absurd hwhite (by decide)
    · decide
    · decide

theorem isBreak_blank : IsBreak ' ' := ⟨by decide, by decide⟩

theorem isBreak_closeParen : IsBreak ')' := ⟨by decide, by decide⟩

theorem Lexeme.append {used rest : Text} {ts : List Token} (h : Lexeme used rest ts) {c : Char}
    (hc : IsBreak c) (t : Text) : Lexeme used (rest ++ c :: t) ts := by
  cases h with
  | blank h => exact .blank h
  | openParen => exact .openParen
  | closeParen => exact .closeParen
  | phrase h => exact .phrase h
  | fieldPhrase hrun hname hwords => exact .fieldPhrase hrun hname hwords
  | run hne hrun hrest hscope =>
    cases rest with
    | nil => exact .run hne hrun (by simpa using hc.1) (.inr (by simpa using hc.2))
    | cons d rest => exact .run hne hrun hrest hscope

namespace Tokens

variable {s t : Text} {ts us : List Token}

/-- Texts with white space or a parenthesis between them are read one by one. -/
theorem append (h : Tokens s ts) {c : Char} (hc : IsBreak c) (h' : Tokens (c :: t) us) :
    Tokens (s ++ c :: t) (ts ++ us) := by
  induction h with
  | nil => exact h'
  | cons hl _ ih =>
    rw [List.append_assoc, List.append_assoc]
    exact .cons (hl.append hc t) ih

/-- The same where a quote of the second text is never closed. -/
theorem append_unclosed (h : Tokens s ts) {c : Char} (hc : IsBreak c) {offset : Nat}
    (h' : Unclosed (c :: t) offset) : Unclosed (s ++ c :: t) (utf8Length s + offset) := by
  induction h with
  | nil => simpa using h'
  | cons hl _ ih =>
    rw [List.append_assoc, utf8Length_append, Nat.add_assoc]
    exact .cons (hl.append hc t) ih

theorem blank {c : Char} (hc : isWhiteSpace c = true) (h : Tokens t ts) : Tokens (c :: t) ts :=
  .cons (.blank hc) h

theorem openParen (h : Tokens t ts) : Tokens ('(' :: t) (.openParen :: ts) := .cons .openParen h

theorem closeParen (h : Tokens t ts) : Tokens (')' :: t) (.closeParen :: ts) := .cons .closeParen h

end Tokens

end DocumentSearch
