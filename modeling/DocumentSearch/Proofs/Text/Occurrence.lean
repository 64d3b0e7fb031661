import DocumentSearch.Text.Occurrence

/-!
# Laws of occurrences

Counting the occurrences of a text and asking whether there is one come to the same, and a text
without the separator occurs in joined pieces iff it occurs in one of them.

Results:

* `occurrences_eq_zero_iff`, `occurrences_ne_zero_iff`: what is counted is what occurs.
* `occursIn_intercalate`: no occurrence reaches over a separator.
-/

namespace DocumentSearch.Text

/-! ## Counting -/

theorem length_hits_addChar (c : Char) (cuts : Cuts) :
    (cuts.addChar c).hits.length = cuts.hits.length := by
  obtain ⟨hits, rest⟩ := cuts
  cases hits <;> rfl

theorem occurrences_eq_zero_iff {needle t : Text} (hne : needle ≠ []) :
    occurrences needle t = 0 ↔ occursIn needle t = false := by
  have hempty : needle.isEmpty = false := by simpa using hne
  unfold occurrences
  induction t using cuts.induct (· == ·) needle with
  | case1 => simp [cuts, occursIn, hempty]
  | case2 c t h ih =>
    have hprefix : needle.isPrefixOf (c :: t) = true := by
      rwa [hempty, startsWith_beq] at h
    rw [cuts, if_pos h, occursIn, hprefix]
    simp [Cuts.addHit]
  | case3 c t h ih =>
    have hprefix : needle.isPrefixOf (c :: t) = false := by
      rwa [hempty, startsWith_beq, Bool.not_false, Bool.true_and, Bool.not_eq_true] at h
    rw [cuts, if_neg h, length_hits_addChar, occursIn, hprefix, Bool.false_or]
    exact ih

theorem occurrences_nil_left (t : Text) : occurrences [] t = 0 := by
  unfold occurrences
  induction t with
  | nil => simp [cuts]
  | cons c t ih =>
    rw [cuts, if_neg (by simp), length_hits_addChar]
    exact ih

theorem occurrences_ne_zero_iff {needle t : Text} :
    occurrences needle t ≠ 0 ↔ needle ≠ [] ∧ needle <:+: t := by
  by_cases hne : needle = []
  · simp [hne, occurrences_nil_left]
  · rw [Ne, occurrences_eq_zero_iff hne, Bool.not_eq_false, occursIn_iff]
    simp [hne]

/-! ## Joined pieces -/

theorem infix_append_cons_iff {needle s t : Text} {sep : Char} (hsep : sep ∉ needle) :
    needle <:+: s ++ sep :: t ↔ needle <:+: s ∨ needle <:+: t := by
  have eq_nil_of_begins {u : Text} (hu : sep ∉ u) (h : u <+: sep :: t) : u = [] := by
    rcases List.prefix_cons_iff.1 h with rfl | ⟨v, rfl, -⟩
    · rfl
    · exact absurd List.mem_cons_self hu
  rw [List.infix_append_iff, List.infix_cons_iff]
  constructor
  · rintro (h | (h | h) | ⟨u, v, rfl, hu, hv⟩)
    · exact .inl h
    · rw [eq_nil_of_begins hsep h]
      exact .inl (List.nil_infix)
    · exact .inr h
    · rw [eq_nil_of_begins (fun h => hsep (List.mem_append_right u h)) hv, List.append_nil]
      exact .inl hu.isInfix
  · rintro (h | h)
    · exact .inl h
    · exact .inr (.inl (.inr h))

theorem occursIn_intercalate {needle : Text} {sep : Char} (hne : needle ≠ [])
    (hsep : sep ∉ needle) (pieces : List Text) :
    occursIn needle ([sep].intercalate pieces) = pieces.any (occursIn needle ·) := by
  induction pieces with
  | nil => simpa [occursIn] using hne
  | cons piece pieces ih =>
    cases pieces with
    | nil => simp
    | cons next pieces =>
      rw [List.any_cons, ← ih, Bool.eq_iff_iff, Bool.or_eq_true, List.intercalate_cons_cons,
        List.append_assoc, List.singleton_append, occursIn_iff, occursIn_iff, occursIn_iff]
      exact infix_append_cons_iff hsep

end DocumentSearch.Text
