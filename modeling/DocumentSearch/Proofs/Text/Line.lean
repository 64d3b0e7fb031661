import DocumentSearch.Text.WhiteSpace

/-!
# Lines and pieces

Texts that are put together from lines, or from pieces with a separator between them, are taken
apart into the same lines and pieces.

Results:

* `splitAll_intercalate`: pieces with separators between them.
* `lines_intercalate`: lines with line feeds between them.
-/

namespace DocumentSearch.Text

/-! ## Pieces -/

section Pieces

variable {sep : Char} {s : Text}

theorem splitAll_eq_singleton (h : sep ∉ s) : splitAll sep s = [s] := by
  induction s with
  | nil => rfl
  | cons c s ih =>
    have hc : c ≠ sep := (List.ne_of_not_mem_cons h).symm
    rw [splitAll, if_neg hc, ih (List.not_mem_of_not_mem_cons h)]

theorem splitAll_append_cons (h : sep ∉ s) (t : Text) :
    splitAll sep (s ++ sep :: t) = s :: splitAll sep t := by
  induction s with
  | nil => rw [List.nil_append, splitAll, if_pos rfl]
  | cons c s ih =>
    have hc : c ≠ sep := (List.ne_of_not_mem_cons h).symm
    rw [List.cons_append, splitAll, if_neg hc, ih (List.not_mem_of_not_mem_cons h)]

theorem splitAll_intercalate {pieces : List Text} (hne : pieces ≠ [])
    (h : ∀ piece ∈ pieces, sep ∉ piece) : splitAll sep ([sep].intercalate pieces) = pieces := by
  induction pieces with
  | nil => exact absurd rfl hne
  | cons piece pieces ih =>
    obtain ⟨hpiece, hpieces⟩ := List.forall_mem_cons.1 h
    cases pieces with
    | nil => rw [List.intercalate_singleton, splitAll_eq_singleton hpiece]
    | cons next pieces =>
      rw [List.intercalate_cons_cons, List.append_assoc, List.singleton_append,
        splitAll_append_cons hpiece, ih (List.cons_ne_nil _ _) hpieces]

/-- What stands in a text of pieces stands in one of them or between them. -/
theorem mem_of_mem_intercalate {between : Text} {pieces : List Text} {c : Char}
    (hc : c ∈ between.intercalate pieces) : c ∈ between ∨ ∃ piece ∈ pieces, c ∈ piece := by
  induction pieces with
  | nil => simp at hc
  | cons piece pieces ih =>
    cases pieces with
    | nil => exact .inr ⟨piece, List.mem_cons_self, by simpa using hc⟩
    | cons next pieces =>
      rw [List.intercalate_cons_cons] at hc
      rcases List.mem_append.1 hc with hc | hc
      · rcases List.mem_append.1 hc with hc | hc
        · exact .inr ⟨piece, List.mem_cons_self, hc⟩
        · exact .inl hc
      · exact (ih hc).imp_right fun ⟨other, hother, hmem⟩ =>
          ⟨other, List.mem_cons_of_mem _ hother, hmem⟩

end Pieces

/-! ## Lines -/

/-- A line feed behind the text ends the text as a line, and nothing in the text does. -/
structure IsLine (l : Text) : Prop where
  lineFeed_notMem : '\n' ∉ l
  getLast?_ne : l.getLast? ≠ some '\r'

/-- The rest of a line is a line, and a line break does not begin with its first character. -/
theorem IsLine.of_cons {c : Char} {l : Text} (h : IsLine (c :: l)) (t : Text) :
    IsLine l ∧ c ≠ '\n' ∧ (c = '\r' → (l ++ t).head? ≠ some '\n') := by
  have hl : '\n' ∉ l := List.not_mem_of_not_mem_cons h.lineFeed_notMem
  have hc : c ≠ '\n' := (List.ne_of_not_mem_cons h.lineFeed_notMem).symm
  have hlast := h.getLast?_ne
  cases l with
  | nil => exact ⟨⟨hl, by simp⟩, hc, fun he => absurd rfl (he ▸ hlast)⟩
  | cons d l =>
    rw [List.getLast?_cons_cons] at hlast
    refine ⟨⟨hl, hlast⟩, hc, fun _ hhead => hl ?_⟩
    cases hhead
    exact List.mem_cons_self

theorem lines_cons {c : Char} {t : Text} (hc : c ≠ '\n')
    (hbreak : c = '\r' → t.head? ≠ some '\n') :
    lines (c :: t) = match lines t with
      | [] => [[c]]
      | l :: ls => (c :: l) :: ls := by
  refine lines.eq_4 c t hc ?_
  rintro t hreturn rfl
  exact hbreak hreturn rfl

theorem lines_append_cons {l : Text} (h : IsLine l) (t : Text) :
    lines (l ++ '\n' :: t) = l :: lines t := by
  induction l with
  | nil => rw [List.nil_append, lines]
  | cons c l ih =>
    obtain ⟨hl, hc, hbreak⟩ := h.of_cons ('\n' :: t)
    rw [List.cons_append, lines_cons hc hbreak, ih hl]

theorem lines_eq_singleton {l : Text} (hne : l ≠ []) (h : '\n' ∉ l) : lines l = [l] := by
  induction l with
  | nil => exact absurd rfl hne
  | cons c l ih =>
    have hl : '\n' ∉ l := List.not_mem_of_not_mem_cons h
    rw [lines_cons (List.ne_of_not_mem_cons h).symm fun _ hhead => hl (List.mem_of_mem_head? hhead)]
    cases l with
    | nil => rfl
    | cons d l => rw [ih (List.cons_ne_nil _ _) hl]

theorem lines_intercalate {ls : List Text} (h : ∀ l ∈ ls, IsLine l ∧ l ≠ []) :
    lines (['\n'].intercalate ls) = ls := by
  induction ls with
  | nil => rfl
  | cons l ls ih =>
    obtain ⟨hl, hls⟩ := List.forall_mem_cons.1 h
    cases ls with
    | nil =>
      rw [List.intercalate_singleton, lines_eq_singleton hl.2 hl.1.lineFeed_notMem]
    | cons next ls =>
      rw [List.intercalate_cons_cons, List.append_assoc, List.singleton_append,
        lines_append_cons hl.1, ih hls]

end DocumentSearch.Text
