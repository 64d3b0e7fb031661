import DocumentSearch.Proofs.Query.Lexeme

/-!
# Tokens as they are written

A token that was read can be written and read again. Its text is the text that it was read from,
except for the distance of a fuzzy term, which may have been left out or written with zeros in
front.

Results:

* `classify_text_classify`: writing and reading a run changes its token no more.
* `Tokens.isReadable`: every token of a text is read back from its own text.
-/

namespace DocumentSearch

open Text

/-- The text of the token is read as the token, before white space, a parenthesis or the end. -/
def Token.IsReadable (token : Token) : Prop :=
  ∀ rest : Text, (∀ c ∈ rest.head?, IsBreak c) → Lexeme token.text rest [token]

/-! ## Scopes -/

theorem splitOnce_append_of_eq_some {sep : Char} {s before after : Text}
    (h : splitOnce sep s = some (before, after)) (t : Text) :
    splitOnce sep (s ++ t) = some (before, after ++ t) := by
  obtain ⟨rfl, hbefore⟩ := splitOnce_eq_some_iff.1 h
  exact splitOnce_eq_some_iff.2 ⟨by simp, hbefore⟩

theorem eq_append_colon_of_scopeOfRun? {run name : Text} (h : scopeOfRun? run = some name) :
    run = name ++ [':'] := by
  unfold scopeOfRun? at h
  split at h
  · next front hfront =>
    split at h
    · cases h
      exact beforeSuffix?_eq_some_iff.1 hfront
    · cases h
  · cases h

theorem eq_append_colon_of_scopedValue? {run name value : Text}
    (h : scopedValue? run = some (name, value)) : run = name ++ ':' :: value := by
  unfold scopedValue? at h
  split at h
  · next hsplit =>
    split at h
    · cases h
      exact (splitOnce_eq_some_iff.1 hsplit).1
    · cases h
  · cases h

/-- What stands behind a tilde does not decide whether the run is scoped to a field. -/
theorem scopedValue?_append_tilde_eq_none_iff {term digits : Text} (h : ':' ∉ digits) :
    scopedValue? (term ++ '~' :: digits) = none ↔
      ∀ name value, splitOnce ':' term = some (name, value) → isIdentifier name = false := by
  unfold scopedValue?
  cases hterm : splitOnce ':' term with
  | some p =>
    obtain ⟨name, value⟩ := p
    rw [splitOnce_append_of_eq_some hterm]
    simp
  | none =>
    have hcolon : ':' ∉ term ++ '~' :: digits := by
      simpa [h] using splitOnce_eq_none_iff.1 hterm
    rw [splitOnce_eq_none_iff.2 hcolon]
    simp

/-! ## Fuzzy terms -/

/-- What is known of a fuzzy term that was read from a run. -/
structure ReadsFuzzy (run term : Text) (distance : Nat) : Prop where
  unscoped : scopedValue? run = none
  eq_append : ∃ digits, run = term ++ '~' :: digits ∧ ∀ c ∈ digits, c.isDigit = true
  ne_nil : term ≠ []
  tilde_notMem : '~' ∉ term
  distance_le : distance ≤ maxDistance

theorem readsFuzzy_of_fuzzyTerm? {run term : Text} {distance : Nat}
    (hscope : scopedValue? run = none) (h : fuzzyTerm? run = some (term, distance)) :
    ReadsFuzzy run term distance := by
  unfold fuzzyTerm? at h
  split at h
  · cases h
  · next front digits hsplit =>
    obtain ⟨hrun, htilde⟩ := splitOnce_eq_some_iff.1 hsplit
    split at h
    · cases h
    · next hne =>
      have hne : front ≠ [] := by simpa using hne
      split at h
      · next hnil =>
        cases h
        have hdigits : digits = [] := by simpa using hnil
        exact ⟨hscope, ⟨digits, hrun, by simp [hdigits]⟩, hne, htilde, by decide⟩
      · split at h
        · next n hn =>
          split at h
          · next hle =>
            cases h
            have hdigits := (Decimal.readNat?_eq_some_iff.1 hn).2.1
            exact ⟨hscope, ⟨digits, hrun, hdigits⟩, hne, htilde, hle⟩
          · cases h
        · cases h

theorem colon_notMem_of_isDigit {digits : Text} (h : ∀ c ∈ digits, c.isDigit = true) :
    ':' ∉ digits := fun hmem => absurd (h ':' hmem) (by decide)

/-- A fuzzy term that is written with its distance is read as it was. -/
theorem ReadsFuzzy.classify_text {run term : Text} {distance : Nat}
    (h : ReadsFuzzy run term distance) :
    classify (Token.fuzzy term distance).text = .fuzzy term distance := by
  obtain ⟨digits, rfl, hdigits⟩ := h.eq_append
  have hmem : '~' ∈ (Token.fuzzy term distance).text := by simp [Token.text]
  have hscope : scopedValue? (Token.fuzzy term distance).text = none := by
    have hunscoped := h.unscoped
    rw [scopedValue?_append_tilde_eq_none_iff (colon_notMem_of_isDigit hdigits)] at hunscoped
    exact (scopedValue?_append_tilde_eq_none_iff
      (colon_notMem_of_isDigit fun _ => Decimal.isDigit_of_mem_natText)).2 hunscoped
  have hsplit : splitOnce '~' (Token.fuzzy term distance).text =
      some (term, Decimal.natText distance) := splitOnce_eq_some_iff.2 ⟨rfl, h.tilde_notMem⟩
  have hfuzzy : fuzzyTerm? (Token.fuzzy term distance).text = some (term, distance) := by
    have hne : term ≠ [] := h.ne_nil
    have hdigits : Decimal.natText distance ≠ [] := Nat.toDigits_ne_nil
    simp [fuzzyTerm?, hsplit, hne, hdigits, h.distance_le]
  have hkeyword {keyword : Text} (hk : '~' ∉ keyword) :
      (Token.fuzzy term distance).text ≠ keyword := fun e => hk (e ▸ hmem)
  rw [classify, if_neg (hkeyword (by decide)), if_neg (hkeyword (by decide)),
    if_neg (hkeyword (by decide)), hscope]
  dsimp only
  rw [hfuzzy]

/-! ## Runs -/

/-- A run is the text of its token, unless the token is a fuzzy term. -/
theorem text_classify_or_readsFuzzy (run : Text) :
    (classify run).text = run ∨
      ∃ term distance, classify run = .fuzzy term distance ∧ ReadsFuzzy run term distance := by
  unfold classify
  split
  · next h => exact .inl h.symm
  · split
    · next h => exact .inl h.symm
    · split
      · next h => exact .inl h.symm
      · split
        · next name value hscope =>
          rw [eq_append_colon_of_scopedValue? hscope]
          split <;> exact .inl rfl
        · next hscope =>
          split
          · next term distance hfuzzy =>
            exact .inr ⟨term, distance, rfl, readsFuzzy_of_fuzzyTerm? hscope hfuzzy⟩
          · split <;> exact .inl rfl

theorem classify_text_classify (run : Text) : classify (classify run).text = classify run := by
  rcases text_classify_or_readsFuzzy run with h | ⟨term, distance, h, hread⟩
  · rw [h]
  · rw [h, hread.classify_text]

theorem endsRun_eq_false_of_isDigit {c : Char} (h : c.isDigit = true) : endsRun c = false := by
  have hdigits : "0123456789".toList.all (!endsRun ·) = true := by decide
  simpa using List.all_eq_true.1 hdigits c (Decimal.mem_digits_of_isDigit h)

theorem isReadable_classify {run : Text} (hne : run ≠ []) (hrun : ∀ c ∈ run, endsRun c = false) :
    (classify run).IsReadable := by
  intro rest hrest
  have hfit : (classify run).text ≠ [] ∧ ∀ c ∈ (classify run).text, endsRun c = false := by
    rcases text_classify_or_readsFuzzy run with h | ⟨term, distance, h, hread⟩
    · rw [h]
      exact ⟨hne, hrun⟩
    · obtain ⟨digits, rfl, -⟩ := hread.eq_append
      rw [h, Token.text]
      refine ⟨by simp, fun c hc => ?_⟩
      rcases List.mem_append.1 hc with hc | hc
      · exact hrun c (List.mem_append_left _ hc)
      · rcases List.mem_cons.1 hc with rfl | hc
        · decide
        · exact endsRun_eq_false_of_isDigit (Decimal.isDigit_of_mem_natText hc)
  have hlex : Lexeme (classify run).text rest [classify (classify run).text] := by
    refine .run hfit.1 hfit.2 (fun c hc => (hrest c hc).1) (.inr fun hquote => ?_)
    exact (hrest '"' hquote).2 rfl
  rwa [classify_text_classify] at hlex

/-! ## Texts -/

theorem Lexeme.isReadable {used rest : Text} {ts : List Token} (h : Lexeme used rest ts) :
    ∀ token ∈ ts, token.IsReadable := by
  cases h with
  | blank _ => simp
  | openParen => exact List.forall_mem_singleton.2 fun _ _ => .openParen
  | closeParen => exact List.forall_mem_singleton.2 fun _ _ => .closeParen
  | phrase h => exact List.forall_mem_singleton.2 fun _ _ => .phrase h
  | @fieldPhrase run name words _ hrun hname hwords =>
    refine List.forall_mem_singleton.2 fun rest _ => ?_
    have hlex : Lexeme (run ++ '"' :: (words ++ ['"'])) rest [.field name (.phrase words)] :=
      .fieldPhrase hrun hname hwords
    rw [eq_append_colon_of_scopeOfRun? hname, List.append_assoc] at hlex
    exact hlex
  | run hne hrun _ _ => exact List.forall_mem_singleton.2 (isReadable_classify hne hrun)

theorem Tokens.isReadable {t : Text} {ts : List Token} (h : Tokens t ts) :
    ∀ token ∈ ts, token.IsReadable := by
  induction h with
  | nil => simp
  | cons h _ ih => exact List.forall_mem_append.2 ⟨h.isReadable, ih⟩

theorem Token.IsReadable.tokens {token : Token} (h : token.IsReadable) :
    Tokens token.text [token] := by
  have := Tokens.cons (h [] (by simp)) .nil
  rwa [List.append_nil] at this

end DocumentSearch
