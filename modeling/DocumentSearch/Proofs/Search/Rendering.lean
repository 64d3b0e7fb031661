import DocumentSearch.Proofs.Query.Token
import DocumentSearch.Proofs.Query.Word
import DocumentSearch.Proofs.Search.Salvage

/-!
# Salvaging plain queries

What is salvaged from a text whose tokens are words, keywords and parentheses. Words are salvaged
from what stands between white space and not from tokens. So it depends on the white space around
parentheses what they are: a keyword that touches a parenthesis becomes a word, and words between
which there are parentheses only become one word.

Results:

* `Rendering.tokens`: a rendering is read as the tokens that it renders.
* `Rendering.exists_chunks`: which tokens stand between white space.
* `salvageTerms_rendering`: what is salvaged from a rendering.
-/

namespace DocumentSearch

open Text

/-! ## Renderings -/

/-- A parenthesis. -/
def Token.isParen (token : Token) : Bool := token = .openParen || token = .closeParen

/-- The word that a token is. -/
def Token.word? : Token → Option Text
  | .word w => some w
  | _ => none

/-- The token is a keyword, or a word of letters and numbers that is no keyword. -/
inductive Token.IsPlain : Token → Prop where
  | and : IsPlain .and
  | or : IsPlain .or
  | not : IsPlain .not
  | word {w : Text} (h : IsWord w) (hkey : isKeyword w = false) : IsPlain (.word w)

/-- The text is a rendering of the tokens, which are parentheses, keywords and words: there is white
space between words and keywords, and there may be white space around all tokens. -/
inductive Rendering : List Token → Text → Prop where
  | nil : Rendering [] []
  | blank {c : Char} {ts : List Token} {t : Text} (hc : isWhiteSpace c = true)
      (tail : Rendering ts t) : Rendering ts (c :: t)
  | openParen {ts : List Token} {t : Text} (tail : Rendering ts t) :
      Rendering (.openParen :: ts) ('(' :: t)
  | closeParen {ts : List Token} {t : Text} (tail : Rendering ts t) :
      Rendering (.closeParen :: ts) (')' :: t)
  | plain {token : Token} {ts : List Token} {t : Text} (h : token.IsPlain)
      (hbreak : ∀ c ∈ t.head?, IsBreak c) (tail : Rendering ts t) :
      Rendering (token :: ts) (token.text ++ t)

theorem IsBreak.of_mem_head? {c : Char} (hc : IsBreak c) {t : Text} :
    ∀ d ∈ (c :: t).head?, IsBreak d := by simpa using hc

theorem IsWord.isSyntaxChar_eq_false {w : Text} (h : IsWord w) {c : Char} (hc : c ∈ w) :
    isSyntaxChar c = false := by
  refine Bool.eq_false_iff.2 fun hsyntax => h.notMem ?_ hc
  simp only [isSyntaxChar, Bool.or_eq_true, beq_iff_eq] at hsyntax
  rcases hsyntax with (((rfl | rfl) | rfl) | rfl) | rfl <;> decide

namespace Token.IsPlain

variable {token : Token}

theorem classify_text (h : token.IsPlain) : classify token.text = token := by
  cases h with
  | and | or | not => rfl
  | word h hkey => exact h.classify_eq hkey

theorem isWord (h : token.IsPlain) : IsWord token.text := by
  cases h with
  | and | or | not => decide
  | word h _ => exact h

theorem isReadable (h : token.IsPlain) : token.IsReadable := by
  have := isReadable_classify h.isWord.ne_nil fun c => h.isWord.endsRun_eq_false
  rwa [h.classify_text] at this

theorem isParen_eq_false (h : token.IsPlain) : token.isParen = false := by
  cases h <;> rfl

end Token.IsPlain

/-- A rendering is read as the tokens that it renders. -/
theorem Rendering.tokens {ts : List Token} {t : Text} (h : Rendering ts t) : Tokens t ts := by
  induction h with
  | nil => exact .nil
  | blank hc _ ih => exact ih.blank hc
  | openParen _ ih => exact ih.openParen
  | closeParen _ ih => exact ih.closeParen
  | plain h hbreak _ ih => exact .cons (h.isReadable _ hbreak) ih

/-! ## Chunks -/

/-- The text of tokens that stand together without white space. -/
def chunkText (chunk : List Token) : Text := chunk.flatMap Token.text

/-- Plain tokens and parentheses which are read again when they stand together. -/
structure IsChunk (chunk : List Token) : Prop where
  tokens : Tokens (chunkText chunk) chunk
  isPlain : ∀ token ∈ chunk, token.isParen = true ∨ token.IsPlain

namespace IsChunk

variable {chunk : List Token} {token : Token}

theorem nil : IsChunk [] := ⟨.nil, by simp⟩

theorem cons (h : IsChunk chunk) (htoken : token.isParen = true ∨ token.IsPlain)
    (hlexeme : Lexeme token.text (chunkText chunk) [token]) : IsChunk (token :: chunk) :=
  ⟨.cons hlexeme h.tokens, List.forall_mem_cons.2 ⟨htoken, h.isPlain⟩⟩

end IsChunk

/-- The tokens in the chunks are those of the text, and each chunk stands between white space. -/
structure AreChunks (ts : List Token) (t : Text) (chunks : List (List Token)) : Prop where
  flatten_eq : chunks.flatten = ts
  words_eq : words t = chunks.map chunkText
  isChunk : ∀ chunk ∈ chunks, IsChunk chunk

/-- A token at the beginning of a text. -/
theorem AreChunks.exists_cons {ts : List Token} {t : Text} {chunks : List (List Token)}
    (h : AreChunks ts t chunks) {token : Token} (htoken : token.isParen = true ∨ token.IsPlain)
    (hne : token.text ≠ []) (hwhite : ∀ c ∈ token.text, isWhiteSpace c = false)
    (hlexeme : ∀ rest : Text, (rest = [] ∨ rest.head? = t.head?) →
      Lexeme token.text rest [token]) :
    ∃ chunks', AreChunks (token :: ts) (token.text ++ t) chunks' := by
  rcases words_append hne hwhite t with hwords | ⟨w, ws, ht, hhead, hwords⟩
  · refine ⟨[token] :: chunks, congrArg _ h.flatten_eq, ?_, ?_⟩
    · rw [hwords, h.words_eq, List.map_cons, chunkText, List.flatMap_singleton]
    · exact List.forall_mem_cons.2 ⟨IsChunk.nil.cons htoken (hlexeme _ (.inl rfl)), h.isChunk⟩
  · rw [h.words_eq] at ht
    obtain ⟨chunk, chunks, rfl, rfl, rfl⟩ := List.map_eq_cons_iff.1 ht
    obtain ⟨hchunk, hchunks⟩ := List.forall_mem_cons.1 h.isChunk
    refine ⟨(token :: chunk) :: chunks, congrArg _ h.flatten_eq, hwords, ?_⟩
    exact List.forall_mem_cons.2 ⟨hchunk.cons htoken (hlexeme _ (.inr hhead)), hchunks⟩

theorem Rendering.exists_chunks {ts : List Token} {t : Text} (h : Rendering ts t) :
    ∃ chunks, AreChunks ts t chunks := by
  induction h with
  | nil => exact ⟨[], rfl, rfl, by simp⟩
  | blank hc _ ih =>
    obtain ⟨chunks, hflatten, hwords, hchunks⟩ := ih
    exact ⟨chunks, hflatten, by rw [words_cons_of_isWhiteSpace hc, hwords], hchunks⟩
  | openParen _ ih =>
    obtain ⟨chunks, h⟩ := ih
    exact h.exists_cons (.inl rfl) (by simp [Token.text])
      (List.forall_mem_singleton.2 isWhiteSpace_marks.1) fun _ _ => .openParen
  | closeParen _ ih =>
    obtain ⟨chunks, h⟩ := ih
    exact h.exists_cons (.inl rfl) (by simp [Token.text])
      (List.forall_mem_singleton.2 isWhiteSpace_marks.2.1) fun _ _ => .closeParen
  | plain hplain hbreak _ ih =>
    obtain ⟨chunks, h⟩ := ih
    refine h.exists_cons (.inr hplain) hplain.isWord.ne_nil (fun c hc => ?_) fun rest hrest => ?_
    · exact (endsRun_eq_false_iff.1 (hplain.isWord.endsRun_eq_false hc)).1
    · apply hplain.isReadable
      rcases hrest with rfl | hrest
      · simp
      · rwa [hrest]

/-! ## Salvaged chunks -/

/-- The tokens without parentheses, put together. -/
def bareText (chunk : List Token) : Text := chunkText (chunk.filter (!·.isParen))

/-- The chunks that are a keyword and nothing else. -/
def loneKeywords : List (List Token) := [[.and], [.or], [.not]]

/-- What is salvaged from a chunk: nothing from a keyword that stands alone or from parentheses
alone, and otherwise the words and keywords as one word. -/
def salvagedFrom (chunk : List Token) : Option Text :=
  if chunk ∈ loneKeywords ∨ bareText chunk = [] then none
  else some (lower (bareText chunk))

/-- A keyword alone, or parentheses and at most one word. -/
def IsTidy (chunk : List Token) : Prop :=
  chunk ∈ loneKeywords ∨
    chunk.filter (!·.isParen) = [] ∨ ∃ w, chunk.filter (!·.isParen) = [.word w]

namespace IsChunk

variable {chunk : List Token}

/-- A chunk is a keyword as a text iff it is one as a token. -/
theorem isKeyword_iff (h : IsChunk chunk) :
    isKeyword (chunkText chunk) = true ↔ chunk ∈ loneKeywords := by
  have hread {token : Token} (htoken : token.IsPlain) (htext : chunkText chunk = token.text) :
      chunk = [token] := by
    have htokens := tokenize_eq_ok_iff.2 htoken.isReadable.tokens
    rw [← htext, tokenize_eq_ok_iff.2 h.tokens] at htokens
    exact Except.ok.inj htokens
  constructor
  · intro hkey
    simp only [isKeyword, Bool.or_eq_true, beq_iff_eq] at hkey
    rcases hkey with (hkey | hkey) | hkey
    · simp [hread .and hkey, loneKeywords]
    · simp [hread .or hkey, loneKeywords]
    · simp [hread .not hkey, loneKeywords]
  · intro hmem
    simp only [loneKeywords, List.mem_cons, List.not_mem_nil, or_false] at hmem
    rcases hmem with rfl | rfl | rfl <;> rfl

/-- Only letters and numbers are left of a chunk without parentheses. -/
theorem isAlphanumeric_of_mem_bareText (h : IsChunk chunk) :
    ∀ c ∈ bareText chunk, isAlphanumeric c = true := by
  intro c hc
  obtain ⟨token, htoken, hc⟩ := List.mem_flatMap.1 hc
  obtain ⟨hmem, hparen⟩ := List.mem_filter.1 htoken
  rcases h.isPlain token hmem with hparen' | hplain
  · simp [hparen'] at hparen
  · exact hplain.isWord.isAlphanumeric c hc

/-- No more than the parentheses of a chunk is mere syntax. -/
theorem filter_chunkText (h : IsChunk chunk) :
    (chunkText chunk).filter (!isSyntaxChar ·) = bareText chunk := by
  have hplain := h.isPlain
  clear h
  induction chunk with
  | nil => rfl
  | cons token chunk ih =>
    obtain ⟨htoken, hchunk⟩ := List.forall_mem_cons.1 hplain
    rw [chunkText, List.flatMap_cons, List.filter_append, ← chunkText, ih hchunk, bareText,
      bareText]
    rcases htoken with hparen | htoken
    · rw [List.filter_cons_of_neg (by simp [hparen])]
      obtain rfl | rfl : token = .openParen ∨ token = .closeParen := by
        simpa [Token.isParen] using hparen
      all_goals rfl
    · rw [List.filter_cons_of_pos (by simp [htoken.isParen_eq_false]), chunkText, chunkText,
        List.flatMap_cons, List.filter_eq_self.2]
      exact fun c hc => by simp [htoken.isWord.isSyntaxChar_eq_false hc]

theorem salvageWord_eq (h : IsChunk chunk) :
    salvageWord (chunkText chunk) = lower (bareText chunk) := by
  have hmarks {c : Char} (hc : c ∈ marks) : c ∉ bareText chunk := by
    intro hmem
    have := h.isAlphanumeric_of_mem_bareText c hmem
    rw [isAlphanumeric_of_mem_marks hc] at this
    cases this
  have hcolon : splitOnce ':' (bareText chunk) = none :=
    splitOnce_eq_none_iff.2 (hmarks (by decide))
  have htilde : splitLast '~' (bareText chunk) = none :=
    splitLast_eq_none_iff.2 (hmarks (by decide))
  rw [salvageWord, h.filter_chunkText, dropScope, hcolon]
  dsimp only
  rw [dropDistance, htilde]

/-- From a tidy chunk its word is salvaged, if there is one. -/
theorem toList_salvagedFrom (h : IsChunk chunk) (htidy : IsTidy chunk) :
    (salvagedFrom chunk).toList = (chunk.filterMap Token.word?).map lower := by
  have hwords : chunk.filterMap Token.word? =
      (chunk.filter (!·.isParen)).filterMap Token.word? := by
    rw [List.filterMap_filter]
    congr 1
    funext token
    cases token <;> rfl
  rcases htidy with hkey | hnone | ⟨w, hw⟩
  · rw [salvagedFrom, if_pos (.inl hkey)]
    simp only [loneKeywords, List.mem_cons, List.not_mem_nil, or_false] at hkey
    rcases hkey with rfl | rfl | rfl <;> rfl
  · rw [salvagedFrom, if_pos (.inr (by rw [bareText, hnone]; rfl)), hwords, hnone]
    rfl
  · have hbare : bareText chunk = w := by
      rw [bareText, hw, chunkText, List.flatMap_singleton]
      rfl
    have hmem : Token.word w ∈ chunk.filter (!·.isParen) := by simp [hw]
    have hne : w ≠ [] := by
      rcases h.isPlain _ (List.mem_filter.1 hmem).1 with hparen | hplain
      · cases hparen
      · exact hplain.isWord.ne_nil
    have hkey : chunk ∉ loneKeywords := by
      intro hkey
      simp only [loneKeywords, List.mem_cons, List.not_mem_nil, or_false] at hkey
      rcases hkey with rfl | rfl | rfl <;> cases hw
    rw [salvagedFrom, hbare, if_neg (not_or.2 ⟨hkey, hne⟩), hwords, hw]
    rfl

end IsChunk

/-! ## Repetitions -/

theorem firstOccurrences_eq_eraseDups (ts : List Text) : firstOccurrences ts = ts.eraseDups := by
  induction ts using List.reverseRecOn with
  | nil => rfl
  | append_singleton ts t ih =>
    rw [firstOccurrences, List.foldl_append, ← firstOccurrences, ih, List.eraseDups_append]
    by_cases h : t ∈ ts <;> simp [h, List.removeAll, List.eraseDups_cons]

/-! ## Salvaged renderings -/

theorem filter_map_salvageWord {chunks : List (List Token)}
    (h : ∀ chunk ∈ chunks, IsChunk chunk) :
    (((chunks.map chunkText).filter (!isKeyword ·)).map salvageWord).filter (!·.isEmpty) =
      chunks.filterMap salvagedFrom := by
  induction chunks with
  | nil => rfl
  | cons chunk chunks ih =>
    obtain ⟨hchunk, hchunks⟩ := List.forall_mem_cons.1 h
    rw [List.map_cons]
    by_cases hkey : isKeyword (chunkText chunk) = true
    · have hnone : salvagedFrom chunk = none := if_pos (.inl (hchunk.isKeyword_iff.1 hkey))
      rw [List.filter_cons_of_neg (by simp [hkey]), ih hchunks, List.filterMap_cons_none hnone]
    · rw [List.filter_cons_of_pos (by simp [hkey]), List.map_cons, hchunk.salvageWord_eq]
      by_cases hbare : bareText chunk = []
      · have hnone : salvagedFrom chunk = none := if_pos (.inr hbare)
        rw [hbare, lower_nil, List.filter_cons_of_neg (by simp), ih hchunks,
          List.filterMap_cons_none hnone]
      · have hsome : salvagedFrom chunk = some (lower (bareText chunk)) :=
          if_neg (not_or.2 ⟨mt hchunk.isKeyword_iff.2 hkey, hbare⟩)
        rw [List.filter_cons_of_pos (by simpa using lower_ne_nil hbare), ih hchunks,
          List.filterMap_cons_some hsome]

theorem filterMap_salvagedFrom {chunks : List (List Token)}
    (h : ∀ chunk ∈ chunks, IsChunk chunk) (htidy : ∀ chunk ∈ chunks, IsTidy chunk) :
    chunks.filterMap salvagedFrom = (chunks.flatten.filterMap Token.word?).map lower := by
  induction chunks with
  | nil => rfl
  | cons chunk chunks ih =>
    obtain ⟨hchunk, hchunks⟩ := List.forall_mem_cons.1 h
    obtain ⟨hchunkTidy, hchunksTidy⟩ := List.forall_mem_cons.1 htidy
    rw [List.flatten_cons, List.filterMap_append, List.map_append, ← ih hchunks hchunksTidy,
      ← hchunk.toList_salvagedFrom hchunkTidy, List.filterMap_cons]
    cases salvagedFrom chunk <;> rfl

/-- What is salvaged from a rendering is decided by what stands between white space: a keyword
counts for nothing if it stands alone, and otherwise what touches becomes one word without
parentheses. So the words of the query are salvaged, each of them once, if keywords stand alone and
no two words are kept apart by parentheses only. -/
theorem salvageTerms_rendering {ts : List Token} {t : Text} (h : Rendering ts t) :
    tokenize t = .ok ts ∧
    ∃ chunks : List (List Token), chunks.flatten = ts ∧ words t = chunks.map chunkText ∧
      salvageTerms t = (chunks.filterMap salvagedFrom).eraseDups ∧
      ((∀ chunk ∈ chunks, IsTidy chunk) →
        salvageTerms t = ((ts.filterMap Token.word?).map lower).eraseDups) := by
  obtain ⟨chunks, rfl, hwords, hchunks⟩ := h.exists_chunks
  have hsalvage : salvageTerms t = (chunks.filterMap salvagedFrom).eraseDups := by
    rw [salvageTerms, firstOccurrences_eq_eraseDups, hwords, filter_map_salvageWord hchunks]
  refine ⟨tokenize_eq_ok_iff.2 h.tokens, chunks, rfl, hwords, hsalvage, fun htidy => ?_⟩
  rw [hsalvage, filterMap_salvagedFrom hchunks htidy]

/-- Every chunk is tidy, and the second `React` is salvaged already. -/
theorem salvageTerms_rendering_react :
    let react := Token.word "React".toList
    let vue := Token.word "vue".toList
    let ts := [.openParen, react, .closeParen, .or, vue, .openParen, react]
    let t := "(React) OR vue (React".toList
    Rendering ts t ∧ tokenize t = .ok ts ∧ salvageTerms t = ["react".toList, "vue".toList] ∧
      ∃ chunks : List (List Token), chunks.flatten = ts ∧ words t = chunks.map chunkText ∧
        salvageTerms t = (chunks.filterMap salvagedFrom).eraseDups := by
  intro react vue ts t
  have hreact : react.IsPlain := .word (by decide) (by decide)
  have hvue : vue.IsPlain := .word (by decide) (by decide)
  have hlast : Rendering [.openParen, react] "(React".toList :=
    .openParen (.plain (t := []) hreact (by simp) .nil)
  have hrest : Rendering [.or, vue, .openParen, react] "OR vue (React".toList := by
    refine .plain (t := " vue (React".toList) .or ?_ (.blank (by decide) ?_)
    · exact isBreak_blank.of_mem_head?
    · refine .plain (t := " (React".toList) hvue ?_ (.blank (by decide) hlast)
      exact isBreak_blank.of_mem_head?
  have h : Rendering ts t := by
    refine .openParen (.plain (t := ") OR vue (React".toList) hreact ?_ ?_)
    · exact isBreak_closeParen.of_mem_head?
    · exact .closeParen (.blank (by decide) hrest)
  obtain ⟨hread, chunks, hflatten, hwords, hsalvage, -⟩ := salvageTerms_rendering h
  exact ⟨h, hread, by decide +kernel, chunks, hflatten, hwords, hsalvage⟩

/-- In `(NOT hooks` the keyword is salvaged for a word, and in `react(hooks` the two words become
one. -/
theorem salvageTerms_touching_parens :
    let hooks := Token.word "hooks".toList
    let react := Token.word "react".toList
    let negated := [.openParen, .not, hooks]
    let grouped := [react, .openParen, hooks]
    let wanted (ts : List Token) := ((ts.filterMap Token.word?).map lower).eraseDups
    (Rendering negated "(NOT hooks".toList ∧ wanted negated = ["hooks".toList] ∧
      salvageTerms "(NOT hooks".toList = ["not".toList, "hooks".toList]) ∧
    (Rendering grouped "react(hooks".toList ∧ wanted grouped = ["react".toList, "hooks".toList] ∧
      salvageTerms "react(hooks".toList = ["reacthooks".toList]) := by
  intro hooks react negated grouped wanted
  have hhooks : Rendering [hooks] "hooks".toList :=
    .plain (t := []) (.word (by decide) (by decide)) (by simp) .nil
  have hnegated : Rendering negated "(NOT hooks".toList := by
    refine .openParen (.plain (t := " hooks".toList) .not ?_ (.blank (by decide) hhooks))
    exact isBreak_blank.of_mem_head?
  have hgrouped : Rendering grouped "react(hooks".toList := by
    refine .plain (t := "(hooks".toList) (.word (by decide) (by decide)) ?_ (.openParen hhooks)
    exact (isBreak_iff.2 (.inr (.inl rfl))).of_mem_head?
  exact ⟨⟨hnegated, by decide +kernel, by decide +kernel⟩,
    ⟨hgrouped, by decide +kernel, by decide +kernel⟩⟩

end DocumentSearch
