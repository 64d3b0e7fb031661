import DocumentSearch.Proofs.Text.CharTable
import DocumentSearch.Text.LowerCase

/-!
# Laws of the lower case

No character of a text in lower case moves any more, not even a sigma, whose place in the word has
been looked at the first time. Words that are separated by blanks have lower cases of their own.

Results:

* `lower_lower`: the lower case of a text in lower case is the text.
* `lower_append_cons_of_blank`, `lower_intercalate`: the lower case of texts with blanks between
  them.
* `blank_mem_of_mem_lower`: the lower case of a text without blanks has none.
* `lower_infix_lower`: the lower case of a piece of a text is a piece of the lower case, unless the
  piece cuts a capital sigma off from the rest of its word.
-/

namespace DocumentSearch.Text

/-! ## What characters move to -/

/-- What no lower case is moved to: the surrogates, three characters, and all that moves on. -/
def lowerCaseStops : List Shift :=
  ⟨0xD800, 0xDFFF, 1, 0⟩ :: ([' ', 'İ', 'Σ'].map .single ++ lowerCaseShifts)

theorem lowerCaseShifts_avoid_stops : ∀ s ∈ lowerCaseShifts,
    0 ≤ s.first + s.distance ∧ s.imageLast < 0x110000 ∧ lowerCaseStops.all s.avoids = true := by
  decide +kernel

theorem lowerCaseShifts_settle : Settles lowerCaseShifts lowerCaseStops :=
  ⟨List.mem_cons_self, lowerCaseShifts_avoid_stops⟩

/-! ## Characters in lower case -/

/-- The character stays as it is where a text is put in lower case. -/
structure IsLower (c : Char) : Prop where
  lowerChar_eq : lowerChar c = [c]
  ne_sigma : c ≠ 'Σ'

/-- What a character moves to is in lower case and no blank. -/
theorem isLower_of_shifted? {n m : Nat} (h : shifted? lowerCaseShifts n = some m) :
    IsLower (Char.ofNat m) ∧ Char.ofNat m ≠ ' ' := by
  have hnone : shifted? lowerCaseShifts m = none :=
    lowerCaseShifts_settle.shifted?_eq_none h
      (List.subset_cons_of_subset _ (List.subset_append_right _ _))
  have hne {c : Char} (hc : c ∈ [' ', 'İ', 'Σ']) : Char.ofNat m ≠ c :=
    lowerCaseShifts_settle.ofNat_ne h
      (List.mem_cons_of_mem _ (List.mem_append_left _ (List.mem_map_of_mem hc)))
  refine ⟨⟨?_, hne (by simp)⟩, hne (by simp)⟩
  rw [lowerChar, if_neg (hne (by simp)), lowerCaseShifts_settle.toNat_ofNat h, hnone]

theorem of_mem_lowerChar {c d : Char} (hd : d ∈ lowerChar c) :
    IsLower d ∧ d ≠ ' ' ∨ d = c ∧ lowerChar c = [c] := by
  by_cases hc : c = 'İ'
  · rw [lowerChar, if_pos hc] at hd
    refine .inl ?_
    rcases List.mem_cons.1 hd with rfl | hd
    · exact ⟨⟨by decide, by decide⟩, by decide⟩
    · cases List.mem_singleton.1 hd
      exact ⟨⟨by decide, by decide⟩, by decide⟩
  · rw [lowerChar, if_neg hc] at hd ⊢
    cases h : shifted? lowerCaseShifts c.toNat with
    | some m =>
      rw [h, List.mem_singleton] at hd
      exact .inl (hd ▸ isLower_of_shifted? h)
    | none =>
      rw [h, List.mem_singleton] at hd
      exact .inr ⟨hd, rfl⟩

/-! ## Texts in lower case -/

theorem of_mem_lowerAfter {before : Bool} {t : Text} {d : Char} (hd : d ∈ lowerAfter before t) :
    IsLower d ∧ (d = ' ' → ' ' ∈ t) := by
  induction t generalizing before with
  | nil => cases hd
  | cons c t ih =>
    rw [lowerAfter, List.mem_append] at hd
    rcases hd with hd | hd
    · by_cases hc : c = 'Σ'
      · rw [if_pos hc, List.mem_singleton] at hd
        subst hd
        split
        · exact ⟨⟨by decide, by decide⟩, fun e => absurd e (by decide)⟩
        · exact ⟨⟨by decide, by decide⟩, fun e => absurd e (by decide)⟩
      · rw [if_neg hc] at hd
        rcases of_mem_lowerChar hd with ⟨hlower, hne⟩ | ⟨rfl, hfixed⟩
        · exact ⟨hlower, fun e => absurd e hne⟩
        · exact ⟨⟨hfixed, hc⟩, fun e => e ▸ List.mem_cons_self⟩
    · obtain ⟨hlower, hblank⟩ := ih hd
      exact ⟨hlower, fun e => List.mem_cons_of_mem c (hblank e)⟩

theorem lowerChar_ne_nil (c : Char) : lowerChar c ≠ [] := by
  unfold lowerChar
  split
  · simp
  · split <;> simp

theorem lower_ne_nil {t : Text} (h : t ≠ []) : lower t ≠ [] := by
  obtain ⟨c, t, rfl⟩ := List.exists_cons_of_ne_nil h
  refine List.append_ne_nil_of_left_ne_nil ?_ _
  split
  · simp
  · exact lowerChar_ne_nil c

theorem blank_mem_of_mem_lower {t : Text} (h : ' ' ∈ lower t) : ' ' ∈ t :=
  (of_mem_lowerAfter h).2 rfl

theorem lowerAfter_eq_self {t : Text} (h : ∀ c ∈ t, IsLower c) (before : Bool) :
    lowerAfter before t = t := by
  induction t generalizing before with
  | nil => rfl
  | cons c t ih =>
    obtain ⟨hc, ht⟩ := List.forall_mem_cons.1 h
    rw [lowerAfter, if_neg hc.ne_sigma, hc.lowerChar_eq, ih ht]
    rfl

@[simp] theorem lower_lower (t : Text) : lower (lower t) = lower t :=
  lowerAfter_eq_self (fun _ hc => (of_mem_lowerAfter hc).1) false

/-- A blank between two texts stays where it is, and the texts have the lower cases that they have
alone. -/
theorem lower_append_cons_of_blank {b : Char} (hi : isCaseIgnorable b = false)
    (hc : isCased b = false) (hb : IsLower b) (t u : Text) :
    lower (t ++ b :: u) = lower t ++ b :: lower u := by
  have hends : endsCased false b = false := by simp [endsCased, hi, hc]
  have hcons : lower (b :: u) = b :: lower u := by
    rw [lower, lowerAfter, if_neg hb.ne_sigma, hb.lowerChar_eq, hends]
    rfl
  rw [lower_append_of_blank hi hc, hcons]

theorem lower_intercalate (ts : List Text) :
    lower ([' '].intercalate ts) = [' '].intercalate (ts.map lower) := by
  induction ts with
  | nil => rfl
  | cons t ts ih =>
    cases ts with
    | nil => simp
    | cons u ts =>
      rw [List.intercalate_cons_cons, List.append_assoc, List.singleton_append,
        lower_append_cons_of_blank (by decide) (by decide) ⟨by decide, by decide⟩, ih]
      simp [List.intercalate_cons_cons]

/-! ## Pieces of a text -/

/-- The lower case of a piece of a text, which stands before `behind` and after a text that ends
cased iff `before` holds. -/
def lowerBetween (before : Bool) (behind : Text) : Text → Text
  | [] => []
  | c :: t =>
    (if c = 'Σ' then [if before && !startsCased (t ++ behind) then 'ς' else 'σ']
      else lowerChar c) ++ lowerBetween (endsCased before c) behind t

theorem lowerAfter_append (before : Bool) (s t : Text) :
    lowerAfter before (s ++ t) =
      lowerBetween before t s ++ lowerAfter (s.foldl endsCased before) t := by
  induction s generalizing before with
  | nil => rfl
  | cons c s ih =>
    rw [List.cons_append, lowerAfter, ih, lowerBetween, List.foldl_cons, List.append_assoc]

/-- Does a capital sigma between the two texts stand at the end of a word? -/
def sigmaEndsWord (before behind : Text) : Bool :=
  before.foldl endsCased false && !startsCased behind

/-- A capital sigma of the word ends a word in the whole text iff it does where the word stands
alone. -/
def KeepsSigmas (before word behind : Text) : Prop :=
  ∀ s r, word = s ++ 'Σ' :: r →
    sigmaEndsWord (before ++ s) (r ++ behind) = sigmaEndsWord s r

theorem keepsSigmas_iff {before word behind : Text} : KeepsSigmas before word behind ↔
    ∀ n < word.length, word[n]? = some 'Σ' →
      sigmaEndsWord (before ++ word.take n) (word.drop (n + 1) ++ behind) =
        sigmaEndsWord (word.take n) (word.drop (n + 1)) := by
  constructor
  · intro h n hn hsigma
    refine h _ _ ?_
    rw [← (List.getElem_eq_iff hn).2 hsigma, ← List.drop_eq_getElem_cons hn, List.take_append_drop]
  · rintro h s r rfl
    have hdrop : (s ++ 'Σ' :: r).drop (s.length + 1) = r := by simp
    have hs := h s.length (by simp) (by simp)
    rwa [List.take_left, hdrop] at hs

instance (before word behind : Text) : Decidable (KeepsSigmas before word behind) :=
  decidable_of_iff' _ keepsSigmas_iff

theorem lowerBetween_eq_lowerAfter {before word behind s t : Text} (hword : word = s ++ t)
    (h : KeepsSigmas before word behind) :
    lowerBetween ((before ++ s).foldl endsCased false) behind t =
      lowerAfter (s.foldl endsCased false) t := by
  induction t generalizing s with
  | nil => rfl
  | cons c t ih =>
    have htail := @ih (s ++ [c]) (by simp [hword])
    simp only [← List.append_assoc, List.foldl_append, List.foldl_cons, List.foldl_nil] at htail
    rw [List.foldl_append, lowerBetween, lowerAfter, htail]
    by_cases hc : c = 'Σ'
    · subst hc
      have hsigma := h s t hword
      rw [sigmaEndsWord, sigmaEndsWord, List.foldl_append] at hsigma
      rw [if_pos rfl, if_pos rfl, hsigma]
    · rw [if_neg hc, if_neg hc]

/-- The lower case of a piece of a text is a piece of the lower case, if its sigmas keep their
form. -/
theorem lower_infix_lower {before word behind : Text} (h : KeepsSigmas before word behind) :
    lower word <:+: lower (before ++ word ++ behind) := by
  have hword := lowerBetween_eq_lowerAfter (List.nil_append word).symm h
  rw [List.append_nil] at hword
  rw [lower, lower, List.append_assoc, lowerAfter_append, lowerAfter_append, hword,
    ← List.append_assoc]
  exact List.infix_append ..

end DocumentSearch.Text
