import DocumentSearch.Proofs.Text.CaseFold
import DocumentSearch.Text.Wildcard
import Mathlib.Data.List.Forall2

/-!
# What wildcard patterns match

The pass over a pattern keeps a mark on every place of the text. A mark is right if what stands in
front of its place ends in something that the pieces read so far stand for; every piece moves the
marks from right ones to right ones, so a mark is left at the end iff the pattern matches.

Results:

* `Marked.move`: one piece of the pattern keeps the marks right.
* `Wildcard.isMatch_iff`: a pattern matches the texts with a piece that it stands for.
* `Wildcard.isMatch_append`: a match is not lost behind more text.
* `isMatch_compile_iff`: what a pattern matches, character by character.
* `isMatch_compile_append_star_iff`: a word before a star matches what begins with the word, up to
  case.
-/

namespace DocumentSearch.Text

/-- The texts that a piece of a pattern stands for. -/
def Piece.Means : Piece → Text → Prop
  | .run, m => '\n' ∉ m
  | .one, m => ∃ c, m = [c] ∧ c ≠ '\n'
  | .folded c, m => ∃ d, m = [d] ∧ foldChar d = c

/-! ## Marks -/

/-- There is a mark on each place in the text that stands behind a text of which `ends` holds, and
on no other place. In front of the text stands `before`. -/
inductive Marked (ends : Text → Prop) : Text → Text → List Bool → Prop where
  | last {before : Text} {mark : Bool} (h : mark = true ↔ ends before) :
      Marked ends before [] [mark]
  | cons {before t : Text} {c : Char} {mark : Bool} {marks : List Bool}
      (h : mark = true ↔ ends before) (tail : Marked ends (before ++ [c]) t marks) :
      Marked ends before (c :: t) (mark :: marks)

/-- Something of which `ends` holds stands before what the piece stands for. -/
def Piece.After (p : Piece) (ends : Text → Prop) (x : Text) : Prop :=
  ∃ x' m, x = x' ++ m ∧ p.Means m ∧ ends x'

namespace Marked

variable {ends ends' : Text → Prop} {before t : Text} {marks : List Bool}

theorem congr (h : Marked ends before t marks) (hends : ∀ x, ends x ↔ ends' x) :
    Marked ends' before t marks := by
  induction h with
  | last h => exact .last (h.trans (hends _))
  | cons h _ ih => exact .cons (h.trans (hends _)) ih

theorem replicate (before t : Text) :
    Marked (fun _ => True) before t (List.replicate (t.length + 1) true) := by
  induction t generalizing before with
  | nil => exact .last (by simp)
  | cons c t ih => exact .cons (by simp) (ih _)

theorem any_eq_true_iff (h : Marked ends before t marks) :
    marks.any id = true ↔ ∃ x y, t = x ++ y ∧ ends (before ++ x) := by
  induction h with
  | last h => simp [h]
  | @cons before t c mark marks h _ ih =>
    rw [List.any_cons, Bool.or_eq_true, ih, id, h]
    constructor
    · rintro (h | ⟨x, y, rfl, h⟩)
      · exact ⟨[], c :: t, rfl, by simpa using h⟩
      · exact ⟨c :: x, y, rfl, by simpa using h⟩
    · rintro ⟨x, y, hxy, h⟩
      cases x with
      | nil => exact .inl (by simpa using h)
      | cons d x =>
        obtain ⟨rfl, rfl⟩ := List.cons.inj hxy
        exact .inr ⟨x, y, rfl, by simpa using h⟩

/-! ## Moving the marks -/

/-- Moving over one character that passes the test. -/
theorem advance {p : Piece} {passes : Char → Bool}
    (hp : ∀ m, p.Means m ↔ ∃ c, m = [c] ∧ passes (foldChar c) = true) {arrived : Bool}
    (h : Marked ends before t marks) (harrived : arrived = true ↔ p.After ends before) :
    Marked (p.After ends) before t (Text.advance passes arrived (t.map foldChar) marks) := by
  induction h generalizing arrived with
  | last => exact .last harrived
  | @cons before t c mark marks h _ ih =>
    refine .cons harrived (ih ?_)
    rw [Bool.and_eq_true, h]
    constructor
    · rintro ⟨hends, hc⟩
      exact ⟨before, [c], rfl, (hp _).2 ⟨c, rfl, hc⟩, hends⟩
    · rintro ⟨x, m, hx, hm, hends⟩
      obtain ⟨d, rfl, hd⟩ := (hp m).1 hm
      obtain ⟨rfl, hcd⟩ := List.append_inj' hx rfl
      cases hcd
      exact ⟨hends, hd⟩

/-- Moving over a run of characters. That a mark has `arrived` says that the run has begun. -/
theorem spread {arrived : Bool} (h : Marked ends before t marks)
    (harrived : arrived = true ↔
      ∃ x m, before = x ++ m ∧ m ≠ [] ∧ Piece.run.Means m ∧ ends x) :
    Marked (Piece.run.After ends) before t (Text.spread arrived (t.map foldChar) marks) := by
  have here {before : Text} {mark arrived : Bool} (h : mark = true ↔ ends before)
      (harrived : arrived = true ↔
        ∃ x m, before = x ++ m ∧ m ≠ [] ∧ Piece.run.Means m ∧ ends x) :
      (mark || arrived) = true ↔ Piece.run.After ends before := by
    rw [Bool.or_eq_true, h, harrived]
    constructor
    · rintro (h | ⟨x, m, hx, -, hm, h⟩)
      · exact ⟨before, [], by simp, by simp [Piece.Means], h⟩
      · exact ⟨x, m, hx, hm, h⟩
    · rintro ⟨x, m, hx, hm, h⟩
      by_cases hnil : m = []
      · exact .inl (by simpa [hx, hnil] using h)
      · exact .inr ⟨x, m, hx, hnil, hm, h⟩
  induction h generalizing arrived with
  | last h => exact .last (here h harrived)
  | @cons before t c mark marks h _ ih =>
    refine .cons (here h harrived) (ih ?_)
    rw [Bool.and_eq_true, here h harrived, bne_iff_ne, Ne, foldChar_eq_iff (by simp)]
    constructor
    · rintro ⟨⟨x, m, rfl, hm, hends⟩, hc⟩
      refine ⟨x, m ++ [c], by simp, by simp, ?_, hends⟩
      simp only [Piece.Means, List.mem_append, List.mem_singleton, not_or] at hm ⊢
      exact ⟨hm, Ne.symm hc⟩
    · rintro ⟨x, m, hx, hne, hm, hends⟩
      obtain ⟨m, d, rfl⟩ : ∃ m' d, m = m' ++ [d] := ⟨_, _, (List.dropLast_append_getLast hne).symm⟩
      rw [← List.append_assoc] at hx
      obtain ⟨rfl, hcd⟩ := List.append_inj' hx rfl
      cases hcd
      simp only [Piece.Means, List.mem_append, List.mem_singleton, not_or] at hm
      exact ⟨⟨x, m, rfl, hm.1, hends⟩, Ne.symm hm.2⟩

theorem move (p : Piece) (h : Marked ends [] t marks) :
    Marked (p.After ends) [] t (p.move (t.map foldChar) marks) := by
  have hone {p : Piece} (hp : ¬ p.Means []) : ¬ p.After ends [] := by
    rintro ⟨x, m, hx, hm, -⟩
    obtain ⟨-, rfl⟩ := List.append_eq_nil_iff.1 hx.symm
    exact hp hm
  cases p with
  | run =>
    refine h.spread (iff_of_false Bool.false_ne_true ?_)
    rintro ⟨x, m, hx, hne, -⟩
    exact hne (List.append_eq_nil_iff.1 hx.symm).2
  | one =>
    refine h.advance (fun m => ?_) (iff_of_false Bool.false_ne_true (hone ?_))
    · simp only [Piece.Means, bne_iff_ne, Ne, foldChar_eq_iff (d := '\n') (by simp)]
    · simp [Piece.Means]
  | folded c =>
    refine h.advance (fun m => ?_) (iff_of_false Bool.false_ne_true (hone ?_))
    · simp only [Piece.Means, beq_iff_eq]
    · simp [Piece.Means]

/-- Moving over a whole pattern. -/
theorem foldl_move {pieces : List Piece} (h : Marked ends [] t marks) :
    Marked (fun x => ∃ x' ms, x = x' ++ ms.flatten ∧ List.Forall₂ Piece.Means pieces ms ∧ ends x')
      [] t (pieces.foldl (Piece.move (t.map foldChar)) marks) := by
  induction pieces generalizing ends marks with
  | nil => exact h.congr fun x => by simp
  | cons p pieces ih =>
    refine (ih (h.move p)).congr fun x => ?_
    constructor
    · rintro ⟨x', ms, rfl, hms, x'', m, rfl, hm, hends⟩
      exact ⟨x'', m :: ms, by simp, .cons hm hms, hends⟩
    · rintro ⟨x', _, rfl, hall, hends⟩
      obtain ⟨m, ms, hm, hms, rfl⟩ := List.forall₂_cons_left_iff.1 hall
      exact ⟨x' ++ m, ms, by simp, hms, x', m, rfl, hm, hends⟩

end Marked

/-! ## Patterns -/

/-- A pattern matches the texts with a piece that it stands for. -/
theorem Wildcard.isMatch_iff {w : Wildcard} {t : Text} :
    w.isMatch t = true ↔
      ∃ x ms y, t = x ++ ms.flatten ++ y ∧ List.Forall₂ Piece.Means w.pieces ms := by
  rw [Wildcard.isMatch, (Marked.replicate [] t).foldl_move.any_eq_true_iff]
  constructor
  · rintro ⟨_, y, rfl, x, ms, rfl, hms, -⟩
    exact ⟨x, ms, y, rfl, hms⟩
  · rintro ⟨x, ms, y, rfl, hms⟩
    exact ⟨x ++ ms.flatten, y, rfl, x, ms, rfl, hms, trivial⟩

theorem Wildcard.isMatch_append {w : Wildcard} {t : Text} (h : w.isMatch t = true) (u : Text) :
    w.isMatch (t ++ u) = true := by
  obtain ⟨x, ms, y, rfl, hms⟩ := Wildcard.isMatch_iff.1 h
  exact Wildcard.isMatch_iff.2 ⟨x, ms, y ++ u, by simp, hms⟩

/-- What a character of a pattern stands for: `*` for any run of characters within a line, `?` for
one character within a line, and every other character for itself, up to case. -/
def StandsFor (c : Char) (m : Text) : Prop :=
  if c = '*' then '\n' ∉ m
  else if c = '?' then ∃ d, m = [d] ∧ d ≠ '\n'
  else ∃ d, m = [d] ∧ sameFolded c d = true

theorem Piece.means_ofChar_iff {c : Char} {m : Text} :
    (Piece.ofChar c).Means m ↔ StandsFor c m := by
  unfold Piece.ofChar StandsFor
  split
  · simp [Piece.Means]
  · simp [Piece.Means]
  · next hstar hone =>
    rw [if_neg hstar, if_neg hone]
    simp only [Piece.Means, sameFolded, beq_iff_eq, eq_comm (a := foldChar c)]

/-- A pattern matches a text iff the text has a piece that can be cut into as many pieces as the
pattern has characters, such that each character stands for its piece. No cut is missed, wherever
the stars stand, and no other character has a meaning of its own. -/
theorem isMatch_compile_iff (p t : Text) :
    (Wildcard.compile p).isMatch t = true ↔
      ∃ (x : Text) (ms : List Text) (y : Text),
        t = x ++ ms.flatten ++ y ∧ List.Forall₂ StandsFor p ms := by
  have hpieces (ms : List Text) :
      List.Forall₂ Piece.Means (Wildcard.compile p).pieces ms ↔ List.Forall₂ StandsFor p ms := by
    rw [Wildcard.compile, List.forall₂_map_left_iff]
    simp only [Piece.means_ofChar_iff]
  simp only [Wildcard.isMatch_iff, hpieces]

/-- The star has to stop at the first of the two letters, a dot is a dot, and a line feed ends every
run. -/
example : (Wildcard.compile "A.*b?".toList).isMatch "xa.bb".toList = true ∧
    (Wildcard.compile "a.b".toList).isMatch "axb".toList = false ∧
    (Wildcard.compile "a*b".toList).isMatch "a\nb".toList = false := by
  decide

theorem Piece.ofChar_of_isWildcard_eq_false {u : Text} (h : isWildcard u = false) :
    u.map Piece.ofChar = u.map fun c => .folded (foldChar c) := by
  refine List.map_congr_left fun c hc => ?_
  have hc := List.any_eq_false.1 h c hc
  simp only [Bool.or_eq_true, beq_iff_eq, not_or] at hc
  unfold Piece.ofChar
  split
  · exact absurd rfl hc.1
  · exact absurd rfl hc.2
  · rfl

/-- What a word before a star stands for. -/
theorem forall₂_folded_run_iff {u : Text} {ms : List Text} :
    List.Forall₂ Piece.Means ((u.map fun c => .folded (foldChar c)) ++ [.run]) ms ↔
      ∃ m r : Text, ms = m.map ([·]) ++ [r] ∧ m.map foldChar = u.map foldChar ∧ '\n' ∉ r := by
  induction u generalizing ms with
  | nil =>
    simp only [List.map_nil, List.nil_append, List.map_eq_nil_iff, List.forall₂_cons_left_iff,
      List.forall₂_nil_left_iff]
    constructor
    · rintro ⟨r, _, hr, rfl, rfl⟩
      exact ⟨[], r, rfl, rfl, hr⟩
    · rintro ⟨_, r, rfl, rfl, hr⟩
      exact ⟨r, [], hr, rfl, rfl⟩
  | cons c u ih =>
    rw [List.map_cons, List.cons_append, List.forall₂_cons_left_iff]
    constructor
    · rintro ⟨_, ms, ⟨d, rfl, hd⟩, hms, rfl⟩
      obtain ⟨m, r, rfl, hm, hr⟩ := ih.1 hms
      exact ⟨d :: m, r, rfl, by simp [hd, hm], hr⟩
    · rintro ⟨_, r, rfl, hm, hr⟩
      obtain ⟨d, m, rfl, hd, hm⟩ := List.map_eq_cons_iff.1 hm
      exact ⟨[d], m.map ([·]) ++ [r], ⟨d, rfl, hd⟩, ih.2 ⟨m, r, rfl, hm, hr⟩, rfl⟩

/-- A word before a star matches the texts with a piece that is the word, up to case. -/
theorem isMatch_compile_append_star_iff {u t : Text} (h : isWildcard u = false) :
    (Wildcard.compile (u ++ ['*'])).isMatch t = true ↔ u.map foldChar <:+: t.map foldChar := by
  have hpieces : (Wildcard.compile (u ++ ['*'])).pieces =
      (u.map fun c => .folded (foldChar c)) ++ [.run] := by
    rw [Wildcard.compile, List.map_append, Piece.ofChar_of_isWildcard_eq_false h]
    rfl
  have hflatten (m r : Text) : (m.map ([·]) ++ [r]).flatten = m ++ r := by
    rw [List.flatten_concat, ← List.flatMap_def, List.flatMap_singleton']
  rw [Wildcard.isMatch_iff, hpieces]
  constructor
  · rintro ⟨x, ms, y, rfl, hms⟩
    obtain ⟨m, r, rfl, hm, -⟩ := forall₂_folded_run_iff.1 hms
    exact ⟨x.map foldChar, (r ++ y).map foldChar, by simp [hflatten, hm]⟩
  · rintro ⟨x, y, hxy⟩
    obtain ⟨xm, y, rfl, hxm, rfl⟩ := List.append_eq_map_iff.1 hxy
    obtain ⟨x, m, rfl, rfl, hm⟩ := List.append_eq_map_iff.1 hxm.symm
    refine ⟨x, m.map ([·]) ++ [[]], y, ?_, forall₂_folded_run_iff.2 ⟨m, [], rfl, hm, by simp⟩⟩
    rw [hflatten, List.append_nil]

end DocumentSearch.Text
