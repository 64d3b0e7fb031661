/-!
# Texts

A text is the list of its characters. This module holds what the rest of the library asks of a text
as a whole: its length in UTF-8, the pieces between separators, and whether another text occurs in
it.

Results:

* `splitOnce_eq_some_iff`: a text is split at the first separator, and nothing is lost.
* `splitLast_eq_some_iff`: the same for the last separator.
* `occursIn_iff`: a text occurs in another iff it is a contiguous piece of it.
* `atMost_refl`, `atMost_antisymm`, `atMost_trans`, `atMost_total`: a linear order of texts.
-/

namespace DocumentSearch

/-- A text: its characters in order. -/
abbrev Text := List Char

namespace Text

/-- The number of bytes of the text in UTF-8. -/
def utf8Length : Text → Nat
  | [] => 0
  | c :: t => c.utf8Size + utf8Length t

@[simp] theorem utf8Length_nil : utf8Length [] = 0 := rfl

@[simp] theorem utf8Length_cons (c : Char) (t : Text) :
    utf8Length (c :: t) = c.utf8Size + utf8Length t := rfl

@[simp] theorem utf8Length_append (s t : Text) :
    utf8Length (s ++ t) = utf8Length s + utf8Length t := by
  induction s with
  | nil => simp
  | cons c s ih => simp [ih, Nat.add_assoc]

/-! ## Splitting -/

/-- The parts before and after the first separator, if there is one. -/
def splitOnce (sep : Char) : Text → Option (Text × Text)
  | [] => none
  | c :: t =>
    if c = sep then some ([], t)
    else (splitOnce sep t).map fun (before, after) => (c :: before, after)

theorem splitOnce_eq_some_iff {sep : Char} {t before after : Text} :
    splitOnce sep t = some (before, after) ↔ t = before ++ sep :: after ∧ sep ∉ before := by
  induction t generalizing before with
  | nil => simp [splitOnce]
  | cons c t ih =>
    by_cases hc : c = sep
    · subst hc
      cases before with
      | nil => simp [splitOnce]
      | cons b before => simp [splitOnce]; rintro rfl; simp
    · cases before with
      | nil => simp [splitOnce, hc]
      | cons b before =>
        simp only [splitOnce, if_neg hc, Option.map_eq_some_iff, Prod.exists, Prod.mk.injEq,
          List.cons.injEq, List.cons_append, List.mem_cons, not_or]
        constructor
        · rintro ⟨u, v, h, ⟨rfl, rfl⟩, rfl⟩
          obtain ⟨rfl, hu⟩ := ih.1 h
          exact ⟨⟨rfl, rfl⟩, fun e => hc e.symm, hu⟩
        · rintro ⟨⟨rfl, rfl⟩, -, hb⟩
          exact ⟨before, after, ih.2 ⟨rfl, hb⟩, ⟨rfl, rfl⟩, rfl⟩

theorem splitOnce_eq_none_iff {sep : Char} {t : Text} : splitOnce sep t = none ↔ sep ∉ t := by
  induction t with
  | nil => simp [splitOnce]
  | cons c t ih =>
    by_cases hc : c = sep
    · simp [splitOnce, hc]
    · simp [splitOnce, hc, ih, Ne.symm hc]

/-- What stands behind the first separator is shorter than the text. -/
theorem length_lt_of_splitOnce {sep : Char} {t before after : Text}
    (h : splitOnce sep t = some (before, after)) : after.length < t.length := by
  rw [(splitOnce_eq_some_iff.1 h).1]
  simp
  omega

/-- The parts before and after the last separator, if there is one. -/
def splitLast (sep : Char) : Text → Option (Text × Text)
  | [] => none
  | c :: t =>
    match splitLast sep t with
    | some (before, after) => some (c :: before, after)
    | none => if c = sep then some ([], t) else none

theorem splitLast_eq_none_iff {sep : Char} {t : Text} : splitLast sep t = none ↔ sep ∉ t := by
  induction t with
  | nil => simp [splitLast]
  | cons c t ih =>
    simp only [splitLast, List.mem_cons, not_or]
    cases h : splitLast sep t with
    | some p => simp [h] at ih ⊢; exact fun _ => ih
    | none =>
      have := ih.1 h
      by_cases hc : c = sep
      · simp [hc]
      · simp [hc, this, Ne.symm hc]

theorem splitLast_eq_some_iff {sep : Char} {t before after : Text} :
    splitLast sep t = some (before, after) ↔ t = before ++ sep :: after ∧ sep ∉ after := by
  induction t generalizing before with
  | nil => simp [splitLast]
  | cons c t ih =>
    simp only [splitLast]
    cases h : splitLast sep t with
    | some p =>
      obtain ⟨u, v⟩ := p
      have hmem : sep ∈ t := by
        by_cases hm : sep ∈ t
        · exact hm
        · simp [splitLast_eq_none_iff.2 hm] at h
      cases before with
      | nil =>
        simp only [Option.some.injEq, Prod.mk.injEq, reduceCtorEq, false_and, List.nil_append,
          List.cons.injEq, false_iff, not_and]
        rintro ⟨-, rfl⟩
        exact fun hn => hn hmem
      | cons b before =>
        simp only [Option.some.injEq, Prod.mk.injEq, List.cons.injEq, List.cons_append]
        have := @ih before
        rw [h] at this
        simp only [Option.some.injEq, Prod.mk.injEq] at this
        constructor
        · rintro ⟨⟨rfl, hu⟩, hv⟩
          obtain ⟨ht, hn⟩ := this.1 ⟨hu, hv⟩
          exact ⟨⟨rfl, ht⟩, hn⟩
        · rintro ⟨⟨rfl, ht⟩, hn⟩
          obtain ⟨hu, hv⟩ := this.2 ⟨ht, hn⟩
          exact ⟨⟨rfl, hu⟩, hv⟩
    | none =>
      have hn := splitLast_eq_none_iff.1 h
      cases before with
      | nil =>
        by_cases hc : c = sep
        · simp only [hc, if_pos, Option.some.injEq, Prod.mk.injEq, true_and, List.nil_append,
            List.cons.injEq]
          exact ⟨fun e => ⟨e, e ▸ hn⟩, fun e => e.1⟩
        · simp [hc]
      | cons b before =>
        constructor
        · intro e
          by_cases hc : c = sep <;> simp [hc] at e
        · rintro ⟨e, -⟩
          simp only [List.cons_append, List.cons.injEq] at e
          exact absurd (by simp [e.2]) hn

/-- The pieces between the separators; a text without separator is its only piece. -/
def splitAll (sep : Char) : Text → List Text
  | [] => [[]]
  | c :: t =>
    if c = sep then [] :: splitAll sep t
    else match splitAll sep t with
      | [] => [[c]]
      | piece :: pieces => (c :: piece) :: pieces

/-! ## Beginnings, ends and occurrences -/

/-- The text without `back`, if the text ends with it. -/
def beforeSuffix? (back : Text) (t : Text) : Option Text :=
  if back.isSuffixOf t then some (t.take (t.length - back.length)) else none

theorem beforeSuffix?_eq_some_iff {back t front : Text} :
    beforeSuffix? back t = some front ↔ t = front ++ back := by
  unfold beforeSuffix?
  constructor
  · intro h
    split at h
    · next hs =>
      obtain ⟨u, rfl⟩ := List.isSuffixOf_iff_suffix.1 hs
      simpa using h
    · simp at h
  · rintro rfl
    simp

theorem beforeSuffix?_eq_none_iff {back t : Text} : beforeSuffix? back t = none ↔ ¬ back <:+ t := by
  rw [beforeSuffix?, ← List.isSuffixOf_iff_suffix]
  split <;> simp_all

/-- Does `needle` occur in the text as a contiguous piece? -/
def occursIn (needle : Text) : Text → Bool
  | [] => needle.isEmpty
  | c :: t => needle.isPrefixOf (c :: t) || occursIn needle t

theorem occursIn_iff {needle t : Text} : occursIn needle t = true ↔ needle <:+: t := by
  induction t with
  | nil => simp [occursIn]
  | cons c t ih => simp [occursIn, ih, List.infix_cons_iff]

/-! ## Order -/

/-- Is `s` at or before `t` in the order of code points, which is also the order of the UTF-8
bytes? -/
def atMost : Text → Text → Bool
  | [], _ => true
  | _ :: _, [] => false
  | a :: s, b :: t => a.val < b.val || (a == b && atMost s t)

theorem atMost_cons_cons_iff {a b : Char} {s t : Text} :
    atMost (a :: s) (b :: t) = true ↔ a.val < b.val ∨ a = b ∧ atMost s t = true := by
  rw [atMost, Bool.or_eq_true, Bool.and_eq_true, decide_eq_true_eq, beq_iff_eq]

theorem atMost_refl (t : Text) : atMost t t = true := by
  induction t with
  | nil => rfl
  | cons a t ih => exact atMost_cons_cons_iff.2 (.inr ⟨rfl, ih⟩)

theorem atMost_antisymm {s t : Text} (hst : atMost s t = true) (hts : atMost t s = true) :
    s = t := by
  induction s generalizing t with
  | nil =>
    cases t with
    | nil => rfl
    | cons b t => cases hts
  | cons a s ih =>
    cases t with
    | nil => cases hst
    | cons b t =>
      rcases atMost_cons_cons_iff.1 hst with hlt | ⟨rfl, hst'⟩
      · rcases atMost_cons_cons_iff.1 hts with hgt | ⟨rfl, -⟩
        · exact absurd (UInt32.lt_trans hlt hgt) (UInt32.lt_irrefl _)
        · exact absurd hlt (UInt32.lt_irrefl _)
      · rcases atMost_cons_cons_iff.1 hts with hgt | ⟨-, hts'⟩
        · exact absurd hgt (UInt32.lt_irrefl _)
        · rw [ih hst' hts']

theorem atMost_trans {s t u : Text} (hst : atMost s t = true) (htu : atMost t u = true) :
    atMost s u = true := by
  induction s generalizing t u with
  | nil => rfl
  | cons a s ih =>
    cases t with
    | nil => cases hst
    | cons b t =>
      cases u with
      | nil => cases htu
      | cons c u =>
        rw [atMost_cons_cons_iff] at hst htu ⊢
        rcases hst with hab | ⟨rfl, hst⟩
        · rcases htu with hbc | ⟨rfl, -⟩
          · exact .inl (UInt32.lt_trans hab hbc)
          · exact .inl hab
        · exact htu.imp_right fun ⟨hac, htu⟩ => ⟨hac, ih hst htu⟩

theorem atMost_total (s t : Text) : (atMost s t || atMost t s) = true := by
  rw [Bool.or_eq_true]
  induction s generalizing t with
  | nil => exact .inl rfl
  | cons a s ih =>
    cases t with
    | nil => exact .inr rfl
    | cons b t =>
      rw [atMost_cons_cons_iff, atMost_cons_cons_iff]
      by_cases hab : a = b
      · subst hab
        exact (ih t).imp (fun h => .inr ⟨rfl, h⟩) fun h => .inr ⟨rfl, h⟩
      · have hne : a.toNat ≠ b.toNat := fun h => hab (Char.ext (UInt32.toNat_inj.1 h))
        exact (Nat.lt_or_gt_of_ne hne).imp .inl .inl

end Text

end DocumentSearch
