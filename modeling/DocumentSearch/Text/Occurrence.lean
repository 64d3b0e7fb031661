import DocumentSearch.Text.Basic

/-!
# Occurrences

The occurrences of one text in another, found from left to right so that no two overlap. The search
cuts the text into what was found and the gaps between. Which characters count as the same is a
parameter: the same character when occurrences are counted (`count_occurrences` of
`search/scoring`), the same up to case when they are shown (`search/highlight`).

Results:

* `toText_cuts`: a cut loses nothing.
* `startsWith_beq`: with equal characters, a beginning is a prefix.
-/

namespace DocumentSearch.Text

/-- Does the text begin with `needle`, up to `same`? -/
def startsWith (same : Char → Char → Bool) : Text → Text → Bool
  | [], _ => true
  | _ :: _, [] => false
  | a :: needle, b :: t => same a b && startsWith same needle t

theorem startsWith_beq (needle t : Text) : startsWith (· == ·) needle t = needle.isPrefixOf t := by
  induction needle generalizing t with
  | nil => simp [startsWith]
  | cons a needle ih =>
    cases t with
    | nil => simp [startsWith]
    | cons b t => simp [startsWith, ih, List.isPrefixOf]

/-- An occurrence with the gap in front of it, which reaches back to the occurrence before. -/
structure Hit where
  gap : Text
  found : Text
deriving DecidableEq, Repr

/-- A text cut at the occurrences in it, and what stands behind the last one. -/
structure Cuts where
  hits : List Hit
  rest : Text
deriving DecidableEq, Repr

/-- The text that was cut. -/
def Cuts.toText (c : Cuts) : Text := (c.hits.flatMap fun h => h.gap ++ h.found) ++ c.rest

/-- Puts a character in front that belongs to no occurrence. -/
def Cuts.addChar (c : Char) : Cuts → Cuts
  | ⟨[], rest⟩ => ⟨[], c :: rest⟩
  | ⟨h :: hits, rest⟩ => ⟨⟨c :: h.gap, h.found⟩ :: hits, rest⟩

/-- Puts an occurrence in front. -/
def Cuts.addHit (found : Text) (cuts : Cuts) : Cuts := ⟨⟨[], found⟩ :: cuts.hits, cuts.rest⟩

/-- Cuts the text at the occurrences of `needle`: at each character, an occurrence that begins there
is taken, and the search goes on behind it. The empty text does not occur. -/
def cuts (same : Char → Char → Bool) (needle : Text) : Text → Cuts
  | [] => ⟨[], []⟩
  | c :: t =>
    if !needle.isEmpty && startsWith same needle (c :: t) then
      (cuts same needle (t.drop (needle.length - 1))).addHit ((c :: t).take needle.length)
    else (cuts same needle t).addChar c
termination_by t => t.length
decreasing_by
  · simp only [List.length_drop, List.length_cons]; omega
  · simp

@[simp] theorem toText_addChar (c : Char) (cuts : Cuts) :
    (cuts.addChar c).toText = c :: cuts.toText := by
  obtain ⟨hits, rest⟩ := cuts
  cases hits <;> simp [Cuts.addChar, Cuts.toText]

@[simp] theorem toText_addHit (found : Text) (cuts : Cuts) :
    (cuts.addHit found).toText = found ++ cuts.toText := by
  simp [Cuts.addHit, Cuts.toText]

theorem toText_cuts (same : Char → Char → Bool) (needle t : Text) :
    (cuts same needle t).toText = t := by
  induction t using cuts.induct same needle with
  | case1 => simp [cuts, Cuts.toText]
  | case2 c t h ih =>
    rw [cuts, if_pos h, toText_addHit, ih]
    obtain ⟨n, hn⟩ : ∃ n, needle.length = n + 1 := by
      cases needle with
      | nil => simp at h
      | cons a needle => exact ⟨needle.length, rfl⟩
    simp [hn]
  | case3 c t h ih => rw [cuts, if_neg h, toText_addChar, ih]

/-- How often `needle` occurs in the text, from left to right and without overlap. -/
def occurrences (needle t : Text) : Nat := (cuts (· == ·) needle t).hits.length

/-- Where the occurrences begin, counted in characters. -/
def positionsFrom (start : Nat) : List Hit → List Nat
  | [] => []
  | h :: hits =>
    (start + h.gap.length) :: positionsFrom (start + h.gap.length + h.found.length) hits

end DocumentSearch.Text
