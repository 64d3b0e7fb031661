import DocumentSearch.Proofs.Text.Scan
import DocumentSearch.Search.Highlight
import Mathlib.Data.List.DropRight

/-!
# Fragments

The fragments of a text show the first hits of its scan for the term, one fragment for each hit.
Every fragment is scanned again for what it marks. That scan need not find the hit that the fragment
was made for, as occurrences of a term can overlap; but it finds something, for the hit is there to
be found.

Results:

* `length_fragments`: how many fragments there are, if the term is read.
* `window_eq`: what a fragment shows of the text.
* `fragments_show_hits`: every fragment, with its marks and its ellipses.
-/

namespace DocumentSearch

open Text

/-! ## Scans up to case -/

/-- The piece is the term up to case. -/
def IsFolded (term m : Text) : Prop := m.map foldChar = term.map foldChar

theorem isSame_sameFolded_iff {term m : Text} : IsSame sameFolded term m ↔ IsFolded term m := by
  have hsame : (fun a b => sameFolded a b = true) = fun a b => foldChar a = foldChar b := by
    funext a b
    rw [sameFolded, beq_iff_eq]
  rw [IsSame, IsFolded, hsame, eq_comm, ← List.forall₂_eq_eq_eq, List.forall₂_map_left_iff,
    List.forall₂_map_right_iff]

theorem isSame_sameFolded_eq (term : Text) : IsSame sameFolded term = IsFolded term := by
  funext m
  exact propext isSame_sameFolded_iff

theorem isUniform_isFolded {term : Text} (h : term ≠ []) :
    IsUniform (IsFolded term) term.length := by
  rw [← isSame_sameFolded_eq]
  exact isUniform_isSame sameFolded h

theorem scan_folded {term : Text} (h : term ≠ []) (t : Text) :
    Scan (IsFolded term) t (cuts sameFolded term t).hits (cuts sameFolded term t).rest := by
  rw [← isSame_sameFolded_eq]
  exact scan_cuts sameFolded h t

/-! ## Places of hits -/

theorem length_positionsFrom (start : Nat) (hits : List Hit) :
    (positionsFrom start hits).length = hits.length := by
  induction hits generalizing start with
  | nil => rfl
  | cons hit hits ih => rw [positionsFrom, List.length_cons, List.length_cons, ih]

theorem positionsFrom_append (start : Nat) (hits hits' : List Hit) :
    positionsFrom start (hits ++ hits') =
      positionsFrom start hits ++ positionsFrom (start + (hitsText hits).length) hits' := by
  induction hits generalizing start with
  | nil => rfl
  | cons hit hits ih =>
    have htext : (hitsText (hit :: hits)).length =
        hit.gap.length + hit.found.length + (hitsText hits).length := by
      rw [hitsText, List.flatMap_cons, List.length_append, List.length_append]
      rfl
    rw [List.cons_append, positionsFrom, positionsFrom, ih, htext]
    simp only [List.cons_append, Nat.add_assoc]

/-! ## Fragments -/

namespace HighlightStyle

variable (style : HighlightStyle)

theorem length_fragments [PatternReader] (text : Text) {term : Text}
    (hread : PatternReader.readsTerm term = true) :
    (style.fragments text term).length =
      min style.maxFragments (cuts sameFolded term text).hits.length := by
  rw [fragments, if_pos hread, List.length_map, List.length_take, length_positionsFrom]

/-- What a fragment shows of the text: what was found, and as much as there is of the characters
before and behind it, up to the given number. -/
theorem window_eq (c : Nat) (before found behind : Text) :
    ((before ++ found ++ behind).drop (before.length - min c before.length)).take
        (min c before.length + found.length + c) =
      before.rtake c ++ found ++ behind.take c := by
  have hstart : before.length - min c before.length = before.length - c := by omega
  have hlength : (before.rtake c ++ found).length = min c before.length + found.length := by
    rw [List.length_append, List.rtake, List.length_drop]
    omega
  have hdrop : (before ++ found ++ behind).drop (before.length - c) =
      before.rtake c ++ found ++ behind := by
    rw [List.append_assoc, List.drop_append_of_le_length (Nat.sub_le _ _), List.append_assoc]
    rfl
  rw [hstart, hdrop, ← hlength, List.take_length_add_append]

/-- The text with marks around the hits. -/
def marked (hits : List Hit) (rest : Text) : Text :=
  (hits.flatMap fun h => h.gap ++ style.preTag ++ h.found ++ style.postTag) ++ rest

/-- The fragment shows `found`, which is the term up to case, with up to `contextChars` characters
of the text before and behind it. All that a scan of this window finds is marked, and that is
something. An ellipsis stands where there is more of the text. -/
def IsFragment (term before found behind fragment : Text) : Prop :=
  ∃ marks tail,
    Scan (IsFolded term)
      (before.rtake style.contextChars ++ found ++ behind.take style.contextChars) marks tail ∧
    marks ≠ [] ∧
    fragment = (if style.contextChars < before.length then style.ellipsis else []) ++
      style.marked marks tail ++
      if style.contextChars < behind.length then style.ellipsis else []

theorem isFragment_fragment {term found : Text} (hterm : term ≠ []) (hfound : IsFolded term found)
    (before behind : Text) :
    style.IsFragment term before found behind
      (style.fragment term (before ++ found ++ behind) before.length term.length) := by
  have hlength : term.length = found.length :=
    ((isUniform_isFolded hterm).length_eq found hfound).symm
  have hscan := scan_folded hterm
    (before.rtake style.contextChars ++ found ++ behind.take style.contextChars)
  refine ⟨_, _, hscan, hscan.hits_ne_nil (List.append_assoc ..) ⟨found, _, rfl, hfound⟩, ?_⟩
  have hbefore : min style.contextChars before.length < before.length ↔
      style.contextChars < before.length := by omega
  have hbehind : before.length + found.length + style.contextChars <
      (before ++ found ++ behind).length ↔ style.contextChars < behind.length := by
    rw [List.length_append, List.length_append]
    omega
  rw [fragment, hlength]
  simp only [window_eq, hbefore, hbehind]
  rfl

end HighlightStyle

/-- The fragments of a text show the first hits of its scan for the term, up to the greatest number
of fragments: the fragment for a hit is cut out of what stands before and behind that hit. The term
must not be refused. -/
theorem fragments_show_hits [PatternReader] (style : HighlightStyle) (text : Text) {term : Text}
    (hterm : term ≠ []) (hread : PatternReader.readsTerm term = true) :
    ∃ hits rest, Scan (IsFolded term) text hits rest ∧
      (∀ hits' rest', Scan (IsFolded term) text hits' rest' → hits' = hits ∧ rest' = rest) ∧
      (style.fragments text term).length = min style.maxFragments hits.length ∧
      ∀ earlier hit later, hits = earlier ++ hit :: later → earlier.length < style.maxFragments →
        ∃ fragment, (style.fragments text term)[earlier.length]? = some fragment ∧
          style.IsFragment term (hitsText earlier ++ hit.gap) hit.found (hitsText later ++ rest)
            fragment := by
  have hscan := scan_folded hterm text
  refine ⟨_, _, hscan, fun _ _ h => h.unique (isUniform_isFolded hterm) hscan,
    style.length_fragments text hread, ?_⟩
  intro earlier hit later hhits hlt
  have hfound : IsFolded term hit.found := hscan.of_mem hit (by simp [hhits])
  have htext : text = hitsText earlier ++ hit.gap ++ hit.found ++
      (hitsText later ++ (cuts sameFolded term text).rest) := by
    have := hscan.eq_append
    rw [hhits] at this
    simpa [hitsText] using this
  have hstart : ((positionsFrom 0 (cuts sameFolded term text).hits).take
      style.maxFragments)[earlier.length]? = some (hitsText earlier ++ hit.gap).length := by
    rw [List.getElem?_take_of_lt hlt, hhits, positionsFrom_append,
      List.getElem?_append_right (by rw [length_positionsFrom]), length_positionsFrom, Nat.sub_self,
      List.length_append, Nat.zero_add]
    rfl
  refine ⟨_, ?_, style.isFragment_fragment hterm hfound _ _⟩
  rw [HighlightStyle.fragments, if_pos hread, List.getElem?_map, hstart, Option.map_some, ← htext]

/-- The second hit of the text lies in the middle of its window, but the scan of the window begins
one character earlier, marks two other pieces, and leaves nothing over. -/
theorem fragments_show_hits_overlapping :
    let _ : PatternReader := .standard
    let style : HighlightStyle := { contextChars := 1, preTag := ['['], postTag := [']'] }
    let term := "aa".toList
    term ≠ [] ∧ PatternReader.readsTerm term = true ∧
      style.fragments "aAaaa".toList term = ["[aA]a...".toList, "...[Aa][aa]".toList] ∧
      style.IsFragment term "aA".toList "aa".toList "a".toList "...[Aa][aa]".toList := by
  intro _ style term
  have hterm : term ≠ [] := by decide
  have hfragments : style.fragments "aAaaa".toList term =
      ["[aA]a...".toList, "...[Aa][aa]".toList] := by decide +kernel
  have hcuts : cuts sameFolded term "aAaaa".toList =
      ⟨[⟨[], "aA".toList⟩, ⟨[], "aa".toList⟩], "a".toList⟩ := by decide +kernel
  have hscan := scan_folded hterm "aAaaa".toList
  rw [hcuts] at hscan
  obtain ⟨hits, rest, -, hunique, -, hshown⟩ :=
    fragments_show_hits style "aAaaa".toList hterm rfl
  obtain ⟨rfl, rfl⟩ := hunique _ _ hscan
  obtain ⟨fragment, hfragment, h⟩ := hshown [⟨[], "aA".toList⟩] _ [] rfl (by decide)
  rw [hfragments] at hfragment
  cases hfragment
  exact ⟨hterm, rfl, hfragments, h⟩

end DocumentSearch
