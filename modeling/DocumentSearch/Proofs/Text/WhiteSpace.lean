import DocumentSearch.Text.WhiteSpace
import Mathlib.Data.List.DropRight

/-!
# Laws of white space

Results:

* `trim_eq_nil_iff`: trimming leaves nothing of a blank text and of no other one.
* `trim_eq_self_iff`: a text is trimmed iff neither of its ends is white space.
* `trim_trim`: what was trimmed is trimmed.
* `isWhiteSpace_of_mem_words`: words are free of white space.
* `words_append`: what a text begins with is a word of its own or the beginning of its first word.
* `words_append_of_isWhiteSpace`: white space keeps the words on its two sides apart.
* `mem_words_iff`: the words are the longest runs without white space.
-/

namespace DocumentSearch.Text

/-- Trimming the end is dropping white space from the right. -/
theorem trimEnd_eq_rdropWhile (t : Text) : trimEnd t = t.rdropWhile isWhiteSpace := by
  induction t with
  | nil => rfl
  | cons c t ih =>
    have hrest : t.reverse.dropWhile isWhiteSpace = (trimEnd t).reverse := by
      rw [ih, List.rdropWhile, List.reverse_reverse]
    rw [trimEnd, List.rdropWhile, List.reverse_cons, List.dropWhile_append, hrest]
    cases trimEnd t with
    | nil => cases hc : isWhiteSpace c <;> simp [hc]
    | cons d u => simp

theorem trimEnd_eq_nil_iff {t : Text} : trimEnd t = [] ↔ ∀ c ∈ t, isWhiteSpace c = true := by
  rw [trimEnd_eq_rdropWhile, List.rdropWhile_eq_nil_iff]

theorem trim_eq_nil_iff {t : Text} : trim t = [] ↔ ∀ c ∈ t, isWhiteSpace c = true := by
  rw [trim, trimEnd_eq_nil_iff, trimStart]
  induction t with
  | nil => simp
  | cons c t ih =>
    rw [List.forall_mem_cons]
    by_cases hc : isWhiteSpace c = true
    · rw [List.dropWhile_cons_of_pos hc, ih]
      simp [hc]
    · rw [List.dropWhile_cons_of_neg hc, List.forall_mem_cons]

/-! ## Trimmed texts -/

theorem trimStart_eq_self_iff {t : Text} :
    trimStart t = t ↔ ∀ c ∈ t.head?, isWhiteSpace c = false := by
  cases t with
  | nil => simp [trimStart]
  | cons c t =>
    rw [trimStart, List.dropWhile_eq_self_iff]
    simp

theorem trimEnd_eq_self_iff {t : Text} :
    trimEnd t = t ↔ ∀ c ∈ t.getLast?, isWhiteSpace c = false := by
  rw [trimEnd_eq_rdropWhile, List.rdropWhile_eq_self_iff]
  cases t using List.reverseRecOn with
  | nil => simp
  | append_singleton t c => simp

theorem trim_eq_self_iff {t : Text} :
    trim t = t ↔ (∀ c ∈ t.head?, isWhiteSpace c = false) ∧
      ∀ c ∈ t.getLast?, isWhiteSpace c = false := by
  rw [← trimStart_eq_self_iff, ← trimEnd_eq_self_iff, trim]
  constructor
  · intro h
    -- Both steps shorten the text or leave it, so neither does anything here.
    have hend : (trimEnd (trimStart t)).length ≤ (trimStart t).length := by
      rw [trimEnd_eq_rdropWhile]
      exact (List.rdropWhile_prefix _ _).length_le
    rw [h] at hend
    have hstart : trimStart t = t := (List.dropWhile_suffix _).eq_of_length_le hend
    exact ⟨hstart, by rwa [hstart] at h⟩
  · rintro ⟨hstart, hend⟩
    rw [hstart, hend]

theorem trim_trim (t : Text) : trim (trim t) = trim t := by
  have hprefix : trim t <+: trimStart t := by
    rw [trim, trimEnd_eq_rdropWhile]
    exact List.rdropWhile_prefix _ _
  refine trim_eq_self_iff.2 ⟨fun c hc => ?_, ?_⟩
  · have hhead : trimStart (trimStart t) = trimStart t := List.dropWhile_idempotent _ _
    obtain ⟨rest, hrest⟩ := hprefix
    refine trimStart_eq_self_iff.1 hhead c ?_
    rw [← hrest, List.head?_append, hc, Option.some_or]
    rfl
  · rw [← trimEnd_eq_self_iff, trim, trimEnd_eq_rdropWhile, trimEnd_eq_rdropWhile]
    exact List.rdropWhile_idempotent _ _

theorem trim_cons_of_isWhiteSpace {c : Char} (hc : isWhiteSpace c = true) (t : Text) :
    trim (c :: t) = trim t := by
  rw [trim, trimStart, List.dropWhile_cons_of_pos hc]
  rfl

theorem trim_append_of_isWhiteSpace {c : Char} (hc : isWhiteSpace c = true) (t : Text) :
    trim (t ++ [c]) = trim t := by
  rw [trim, trimStart, List.dropWhile_append]
  split
  · next hblank =>
    rw [trim, trimStart, List.isEmpty_iff.1 hblank, List.dropWhile_cons_of_pos hc]
    rfl
  · rw [trimEnd_eq_rdropWhile, List.rdropWhile_concat_pos _ _ _ hc, ← trimEnd_eq_rdropWhile]
    rfl

/-- A text without white space is trimmed. -/
theorem trim_eq_self_of_forall {t : Text} (h : ∀ c ∈ t, isWhiteSpace c = false) : trim t = t :=
  trim_eq_self_iff.2 ⟨fun c hc => h c (List.mem_of_mem_head? hc),
    fun c hc => h c (List.mem_of_mem_getLast? hc)⟩

/-! ## Words -/

/-- A word of a text is a word of its tail, unless it begins with the first character. -/
theorem mem_words_cons {c : Char} {t w : Text} (hw : w ∈ words (c :: t)) :
    w ∈ words t ∨ isWhiteSpace c = false ∧ ∃ v, w = c :: v ∧ (v = [] ∨ v ∈ words t) := by
  by_cases hc : isWhiteSpace c = true
  · refine .inl ?_
    cases t with
    | nil => simp [words, hc] at hw
    | cons d t => rwa [words, if_pos hc] at hw
  · cases t with
    | nil => exact .inr ⟨by simpa using hc, [], by simpa [words, hc] using hw, .inl rfl⟩
    | cons d t =>
      rw [words, if_neg hc] at hw
      split at hw
      · rcases List.mem_cons.1 hw with rfl | hw
        · exact .inr ⟨by simpa using hc, [], rfl, .inl rfl⟩
        · exact .inl hw
      · split at hw
        · exact .inr ⟨by simpa using hc, [], by simpa using hw, .inl rfl⟩
        · next v vs hwords =>
          rw [hwords]
          rcases List.mem_cons.1 hw with rfl | hw
          · exact .inr ⟨by simpa using hc, v, rfl, .inr List.mem_cons_self⟩
          · exact .inl (List.mem_cons_of_mem _ hw)

theorem isWhiteSpace_of_mem_words {t w : Text} (hw : w ∈ words t) {c : Char} (hc : c ∈ w) :
    isWhiteSpace c = false := by
  induction t generalizing w with
  | nil => cases hw
  | cons d t ih =>
    rcases mem_words_cons hw with hw | ⟨hd, v, rfl, hv⟩
    · exact ih hw hc
    · rcases List.mem_cons.1 hc with rfl | hc
      · exact hd
      · rcases hv with rfl | hv
        · cases hc
        · exact ih hv hc

theorem words_cons_of_isWhiteSpace {c : Char} (hc : isWhiteSpace c = true) (t : Text) :
    words (c :: t) = words t := by
  cases t <;> simp [words, hc]

/-- A character at the beginning is a word of its own, or the beginning of the first word. -/
theorem words_cons {c : Char} (hc : isWhiteSpace c = false) (t : Text) :
    (∀ d ∈ t.head?, isWhiteSpace d = true) ∧ words (c :: t) = [c] :: words t ∨
      ∃ w ws, words t = w :: ws ∧ w.head? = t.head? ∧ words (c :: t) = (c :: w) :: ws := by
  induction t generalizing c with
  | nil => exact .inl ⟨by simp, by simp [words, hc]⟩
  | cons d t ih =>
    by_cases hd : isWhiteSpace d = true
    · exact .inl ⟨by simpa using hd, by simp [words, hc, hd]⟩
    · have hd : isWhiteSpace d = false := by simpa using hd
      have hword : ∃ w ws, words (d :: t) = (d :: w) :: ws := by
        rcases ih hd with ⟨-, h⟩ | ⟨w, ws, -, -, h⟩
        · exact ⟨[], _, h⟩
        · exact ⟨w, ws, h⟩
      obtain ⟨w, ws, h⟩ := hword
      exact .inr ⟨d :: w, ws, h, rfl, by simp [words, hc, hd, h]⟩

/-- Characters at the beginning are a word of their own, or the beginning of the first word. -/
theorem words_append {s : Text} (hne : s ≠ []) (hs : ∀ c ∈ s, isWhiteSpace c = false) (t : Text) :
    words (s ++ t) = s :: words t ∨
      ∃ w ws, words t = w :: ws ∧ w.head? = t.head? ∧ words (s ++ t) = (s ++ w) :: ws := by
  induction s with
  | nil => exact absurd rfl hne
  | cons c s ih =>
    obtain ⟨hc, hs⟩ := List.forall_mem_cons.1 hs
    cases s with
    | nil =>
      rcases words_cons hc t with ⟨-, h⟩ | h
      · exact .inl h
      · exact .inr h
    | cons d s =>
      obtain ⟨hd, -⟩ := List.forall_mem_cons.1 hs
      rcases words_cons hc (d :: s ++ t) with ⟨hwhite, -⟩ | ⟨v, vs, hv, -, h⟩
      · have := hwhite d rfl
        rw [hd] at this
        cases this
      · rw [List.cons_append, h]
        rcases ih (by simp) hs with hw | ⟨w, ws, ht, hhead, hw⟩
        · rw [hv] at hw
          obtain ⟨rfl, rfl⟩ := List.cons.inj hw
          exact .inl rfl
        · rw [hv] at hw
          obtain ⟨rfl, rfl⟩ := List.cons.inj hw
          exact .inr ⟨w, _, ht, hhead, rfl⟩

/-- White space keeps the words on its two sides apart. -/
theorem words_append_of_isWhiteSpace {c : Char} (hc : isWhiteSpace c = true) (s t : Text) :
    words (s ++ c :: t) = words s ++ words t := by
  induction s with
  | nil => rw [List.nil_append, words_cons_of_isWhiteSpace hc, words, List.nil_append]
  | cons d s ih =>
    by_cases hd : isWhiteSpace d = true
    · rw [List.cons_append, words_cons_of_isWhiteSpace hd, words_cons_of_isWhiteSpace hd, ih]
    · cases s with
      | nil => simp [words, hd, hc, words_cons_of_isWhiteSpace hc]
      | cons e s =>
        rw [List.cons_append] at ih
        rw [List.cons_append, List.cons_append, words, words, if_neg hd, if_neg hd, ih]
        split
        · rfl
        · next he =>
          obtain ⟨w, ws, hw⟩ : ∃ w ws, words (e :: s) = w :: ws := by
            rcases words_cons (by simpa using he) s with ⟨-, h⟩ | ⟨w, ws, -, -, h⟩
            · exact ⟨_, _, h⟩
            · exact ⟨_, _, h⟩
          rw [hw]
          rfl

/-- A run without white space is a word if white space follows, or nothing. -/
theorem words_append_of_head? {s t : Text} (hne : s ≠ []) (hs : ∀ c ∈ s, isWhiteSpace c = false)
    (ht : ∀ c ∈ t.head?, isWhiteSpace c = true) : words (s ++ t) = s :: words t := by
  have hself : words s = [s] := by
    rcases words_append hne hs [] with h | ⟨_, _, h, -⟩
    · rwa [List.append_nil] at h
    · cases h
  cases t with
  | nil => rw [List.append_nil, hself, words]
  | cons c t =>
    have hc : isWhiteSpace c = true := ht c rfl
    rw [words_append_of_isWhiteSpace hc, hself, words_cons_of_isWhiteSpace hc]
    rfl

/-! ## Longest runs -/

/-- The word is a run of the text without white space, and the longest one where it stands. -/
def IsWordOf (w t : Text) : Prop :=
  ∃ before behind, t = before ++ w ++ behind ∧ w ≠ [] ∧ (∀ c ∈ w, isWhiteSpace c = false) ∧
    (∀ c ∈ before.getLast?, isWhiteSpace c = true) ∧ ∀ c ∈ behind.head?, isWhiteSpace c = true

/-- A word of the end of a text is a word of the text, unless the text is cut within a word. -/
theorem IsWordOf.append_left {w s t : Text} (h : IsWordOf w t)
    (hcut : (∀ c ∈ s.getLast?, isWhiteSpace c = true) ∨ ∀ c ∈ t.head?, isWhiteSpace c = true) :
    IsWordOf w (s ++ t) := by
  obtain ⟨before, behind, rfl, hne, hw, hbefore, hbehind⟩ := h
  refine ⟨s ++ before, behind, by simp, hne, hw, ?_, hbehind⟩
  cases before with
  | nil =>
    obtain ⟨c, w, rfl⟩ := List.exists_cons_of_ne_nil hne
    have hc : isWhiteSpace c = false := hw c List.mem_cons_self
    rw [List.append_nil]
    refine hcut.resolve_right fun hhead => ?_
    rw [hhead c rfl] at hc
    cases hc
  | cons d before => rwa [List.getLast?_append_of_ne_nil _ (List.cons_ne_nil d before)]

theorem exists_run_of_cons {c : Char} (hc : isWhiteSpace c = false) (t : Text) :
    ∃ s rest, c :: t = s ++ rest ∧ s ≠ [] ∧ (∀ d ∈ s, isWhiteSpace d = false) ∧
      ∀ d ∈ rest.head?, isWhiteSpace d = true := by
  refine ⟨_, _, (List.takeWhile_append_dropWhile (p := (!isWhiteSpace ·))).symm, ?_, ?_, ?_⟩
  · simp [hc]
  · intro d hd
    simpa using List.mem_takeWhile_imp hd
  · intro d hd
    have hnot := List.head?_dropWhile_not (!isWhiteSpace ·) (c :: t)
    rw [hd] at hnot
    simpa using hnot

theorem isWordOf_of_mem_words {w t : Text} (hw : w ∈ words t) : IsWordOf w t := by
  -- after white space one character shorter, else shorter by the first word
  induction hn : t.length using Nat.strong_induction_on generalizing t with
  | _ n ih =>
    subst hn
    cases t with
    | nil => cases hw
    | cons c t =>
      by_cases hc : isWhiteSpace c = true
      · rw [words_cons_of_isWhiteSpace hc] at hw
        exact (ih _ (Nat.lt_succ_self _) hw rfl).append_left (s := [c]) (.inl (by simpa using hc))
      · obtain ⟨s, rest, hcut, hne, hs, hrest⟩ := exists_run_of_cons (by simpa using hc) t
        rw [hcut] at hw ih ⊢
        rw [words_append_of_head? hne hs hrest] at hw
        rcases List.mem_cons.1 hw with rfl | hw
        · exact ⟨[], rest, rfl, hne, hs, by simp, hrest⟩
        · refine (ih _ ?_ hw rfl).append_left (.inr hrest)
          have := List.length_pos_iff.2 hne
          rw [List.length_append]
          omega

theorem mem_words_iff {w t : Text} : w ∈ words t ↔ IsWordOf w t := by
  refine ⟨isWordOf_of_mem_words, ?_⟩
  rintro ⟨before, behind, rfl, hne, hw, hbefore, hbehind⟩
  have hmem : w ∈ words (w ++ behind) := by
    rw [words_append_of_head? hne hw hbehind]
    exact List.mem_cons_self
  rw [List.append_assoc]
  rcases List.eq_nil_or_concat before with rfl | ⟨before, c, rfl⟩
  · exact hmem
  · have hc : isWhiteSpace c = true := hbefore c (by simp)
    rw [List.concat_eq_append, List.append_assoc, List.singleton_append,
      words_append_of_isWhiteSpace hc]
    exact List.mem_append_right _ hmem

end DocumentSearch.Text
