import DocumentSearch.Proofs.Query.Text
import DocumentSearch.Search.Salvage

/-!
# Words as queries

A word of letters and numbers means nothing else to the query language: it is the term that asks for
the word, unless it is a keyword. With a star behind it, it is a pattern.

Results:

* `IsWord.ofText_eq`: the query that a word is.
* `IsWord.ofText_append_star`: the query that a word before a star is.
-/

namespace DocumentSearch

open Text

/-! ## Letters and numbers -/

/-- The characters that mean something in a query. -/
def marks : Text := ['(', ')', '"', ':', '~', '*', '?']

theorem isAlphanumeric_of_mem_marks {c : Char} (h : c ∈ marks) : isAlphanumeric c = false := by
  have hmarks : marks.all (!isAlphanumeric ·) = true := by decide
  simpa using List.all_eq_true.1 hmarks c h

/-- The code points of white space, one by one. -/
def whiteSpacePoints : List Nat :=
  whiteSpaceRanges.flatMap fun r => List.range' r.1 (r.2 + 1 - r.1)

theorem isAlphanumeric_of_mem_whiteSpacePoints :
    ∀ n ∈ whiteSpacePoints, isAlphanumeric (Char.ofNat n) = false := by decide +kernel

theorem isAlphanumeric_of_isWhiteSpace {c : Char} (h : isWhiteSpace c = true) :
    isAlphanumeric c = false := by
  obtain ⟨r, hr, hge, hle⟩ := mem_of_inRanges h
  have hmem : c.toNat ∈ whiteSpacePoints :=
    List.mem_flatMap.2 ⟨r, hr, List.mem_range'_1.2 ⟨hge, by omega⟩⟩
  simpa using isAlphanumeric_of_mem_whiteSpacePoints _ hmem

theorem isKeyword_eq_false_iff {w : Text} :
    isKeyword w = false ↔ w ≠ Token.and.text ∧ w ≠ Token.or.text ∧ w ≠ Token.not.text := by
  simp [isKeyword, Token.text, and_assoc]

/-- The text is a word: letters and numbers, at least one of them. -/
structure IsWord (w : Text) : Prop where
  ne_nil : w ≠ []
  isAlphanumeric : ∀ c ∈ w, isAlphanumeric c = true

instance (w : Text) : Decidable (IsWord w) :=
  decidable_of_iff (w ≠ [] ∧ w.all isAlphanumeric = true)
    ⟨fun h => ⟨h.1, List.all_eq_true.1 h.2⟩,
      fun h => ⟨h.ne_nil, List.all_eq_true.2 h.isAlphanumeric⟩⟩

namespace IsWord

variable {w : Text}

theorem notMem (h : IsWord w) {c : Char} (hc : c ∈ marks) : c ∉ w := by
  intro hmem
  have := h.isAlphanumeric c hmem
  rw [isAlphanumeric_of_mem_marks hc] at this
  cases this

theorem endsRun_eq_false (h : IsWord w) {c : Char} (hc : c ∈ w) : endsRun c = false := by
  refine endsRun_eq_false_iff.2 ⟨?_, ?_, ?_, ?_⟩
  · rw [Bool.eq_false_iff]
    intro hwhite
    have := h.isAlphanumeric c hc
    rw [isAlphanumeric_of_isWhiteSpace hwhite] at this
    cases this
  all_goals
    rintro rfl
    exact h.notMem (by decide) hc

theorem isWildcard_eq_false (h : IsWord w) : isWildcard w = false := by
  refine List.any_eq_false.2 fun c hc => ?_
  simp only [Bool.or_eq_true, beq_iff_eq]
  rintro (rfl | rfl)
  · exact h.notMem (by decide) hc
  · exact h.notMem (by decide) hc

/-! ## Queries -/

/-- A run that begins with a word and goes on without a scope and without a distance. -/
theorem classify_append (h : IsWord w) {t : Text} (hcolon : ':' ∉ t) (htilde : '~' ∉ t)
    (hkey : isKeyword (w ++ t) = false) :
    classify (w ++ t) = if isWildcard (w ++ t) then .wildcard (w ++ t) else .word (w ++ t) := by
  obtain ⟨hand, hor, hnot⟩ := isKeyword_eq_false_iff.1 hkey
  have hsplit {c : Char} (hc : c ∈ marks) (ht : c ∉ t) : splitOnce c (w ++ t) = none := by
    rw [splitOnce_eq_none_iff, List.mem_append, not_or]
    exact ⟨h.notMem hc, ht⟩
  have hscope : scopedValue? (w ++ t) = none := by
    rw [scopedValue?, hsplit (by decide) hcolon]
  have hfuzzy : fuzzyTerm? (w ++ t) = none := by
    rw [fuzzyTerm?, hsplit (by decide) htilde]
  rw [classify, if_neg hand, if_neg hor, if_neg hnot, hscope]
  dsimp only
  rw [hfuzzy]

theorem classify_eq (h : IsWord w) (hkey : isKeyword w = false) : classify w = .word w := by
  have hclass := h.classify_append List.not_mem_nil List.not_mem_nil (by rwa [List.append_nil])
  rwa [List.append_nil, h.isWildcard_eq_false] at hclass

end IsWord

/-- A run that is a leaf is the query with that leaf only. -/
theorem ofText_eq_of_classify {run : Text} {q : Query} (hne : run ≠ [])
    (hrun : ∀ c ∈ run, endsRun c = false) (hleaf : (classify run).leaf? = some q) :
    Query.ofText run = .ok q := by
  have hlex : Lexeme run [] [classify run] := .run hne hrun (by simp) (.inr (by simp))
  have htokens : Tokens run [classify run] := by
    have := Tokens.cons hlex .nil
    rwa [List.append_nil] at this
  refine ofText_eq_ok_iff.2 ⟨⟨_, htokens, .expression (.leaf hleaf) .done⟩, ?_⟩
  have := Token.height_leaf?_le hleaf
  simp only [maxDepth]
  omega

namespace IsWord

variable {w : Text}

/-- A word is the term that asks for it. -/
theorem ofText_eq (h : IsWord w) (hkey : isKeyword w = false) :
    Query.ofText w = .ok (.term w) := by
  refine ofText_eq_of_classify h.ne_nil (fun c => h.endsRun_eq_false) ?_
  rw [h.classify_eq hkey]
  rfl

/-- A word before a star is a pattern. -/
theorem ofText_append_star (h : IsWord w) :
    Query.ofText (w ++ ['*']) = .ok (.wildcard (w ++ ['*'])) := by
  have hne {keyword : Text} (hk : '*' ∉ keyword) : w ++ ['*'] ≠ keyword :=
    fun e => hk (e ▸ List.mem_append_right w List.mem_cons_self)
  have hkey : isKeyword (w ++ ['*']) = false :=
    isKeyword_eq_false_iff.2 ⟨hne (by decide), hne (by decide), hne (by decide)⟩
  have hstar : isWildcard (w ++ ['*']) = true :=
    List.any_eq_true.2 ⟨'*', List.mem_append_right w List.mem_cons_self, by decide⟩
  have hclass := h.classify_append (by decide) (by decide) hkey
  rw [hstar] at hclass
  refine ofText_eq_of_classify (by simp) (fun c hc => ?_) ?_
  · rcases List.mem_append.1 hc with hc | hc
    · exact h.endsRun_eq_false hc
    · cases List.mem_singleton.1 hc
      decide
  · rw [hclass]
    rfl

end IsWord

end DocumentSearch
