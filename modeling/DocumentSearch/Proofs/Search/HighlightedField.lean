import DocumentSearch.Proofs.Search.Evaluation
import DocumentSearch.Proofs.Search.Highlight
import DocumentSearch.Proofs.Search.Score
import DocumentSearch.Proofs.Text.LowerCase
import DocumentSearch.Proofs.Text.Occurrence

/-!
# Fields with highlights

What is counted is shown. A term and a phrase look for their lower case as it is, and their
highlights are found up to case; as every occurrence is one up to case, each field that counts has
fragments. There are at least as many of them as occurrences were counted, since no choice of
occurrences is larger than a scan.

Results:

* `occurrences_le_length_hits`: a scan up to case finds at least what is counted.
* `Evaluator.highlights_term`, `Evaluator.highlights_phrase`: the highlights of a leaf.
* `highlights_show_what_counts`: the fields that they name, and how many fragments there are.
-/

namespace DocumentSearch

open Text

/-! ## Occurrences and fragments -/

theorem occurrences_le_length_hits {needle : Text} (h : needle ≠ []) (t : Text) :
    occurrences needle t ≤ (cuts sameFolded needle t).hits.length := by
  have hcounted : Packing (IsSame (· == ·) needle) t (occurrences needle t) :=
    (scan_cuts (· == ·) h t).packing
  have hfolded : Packing (IsFolded needle) t (occurrences needle t) := by
    apply hcounted.mono
    intro m hm
    rw [isSame_beq_iff.1 hm]
    rfl
  exact (scan_folded h t).length_maximal (isUniform_isFolded h) hfolded

theorem occurrences_pos_iff {needle t : Text} (h : needle ≠ []) :
    0 < occurrences needle t ↔ occursIn needle t = true := by
  rw [Nat.pos_iff_ne_zero, Ne, occurrences_eq_zero_iff h, Bool.not_eq_false]

namespace HighlightStyle

variable [PatternReader] (style : HighlightStyle)

/-- There are at least as many fragments as occurrences are counted, up to the greatest number. -/
theorem min_occurrences_le_length_fragments {needle : Text} (h : needle ≠ [])
    (hread : PatternReader.readsTerm needle = true) (t : Text) :
    min style.maxFragments (occurrences needle t) ≤ (style.fragments t needle).length := by
  have := occurrences_le_length_hits h t
  rw [length_fragments style t hread]
  omega

theorem highlight?_of_occursIn (hmax : 1 ≤ style.maxFragments) {needle t : Text} (h : needle ≠ [])
    (hread : PatternReader.readsTerm needle = true) (ht : occursIn needle t = true)
    (field : Field) :
    style.highlight? field t needle = some ⟨field, style.fragments t needle⟩ := by
  have hcount := (occurrences_pos_iff h).2 ht
  have hlength := style.min_occurrences_le_length_fragments h hread t
  unfold highlight?
  split
  · next hnil =>
    rw [hnil, List.length_nil] at hlength
    omega
  · rfl

end HighlightStyle

/-! ## Highlights of a leaf -/

namespace Evaluator

variable {α : Type} [PatternReader] (e : Evaluator α) (d : Document) {value : Text}

/-- What a field adds to the highlights of a leaf that looks for the needle. -/
def shownIn (needle : Text) (field : Field) : List Highlight :=
  if occursIn needle (d.fieldText field) then
    (e.highlight? field (d.fieldText field) needle).toList
  else []

/-- The highlights of a leaf that looks for the needle in the fields. -/
def shown (needle : Text) (fields : List Field) : List Highlight :=
  (fields.filter fun field => occursIn needle (d.fieldText field)).map fun field =>
    ⟨field, e.config.highlight.fragments (d.fieldText field) needle⟩

theorem flatMap_shownIn (hmax : 1 ≤ e.config.highlight.maxFragments) {needle : Text}
    (h : needle ≠ []) (hread : PatternReader.readsTerm needle = true) (fields : List Field) :
    fields.flatMap (e.shownIn d needle) = e.shown d needle (fields.filter (· ≠ .tags)) := by
  induction fields with
  | nil => rfl
  | cons field fields ih =>
    rw [List.flatMap_cons, ih, shownIn, highlight?]
    by_cases htags : field = .tags
    · simp [htags]
    · by_cases hoccurs : occursIn needle (d.fieldText field) = true
      · simp [shown, htags, hoccurs, e.config.highlight.highlight?_of_occursIn hmax h hread hoccurs]
      · simp [shown, htags, hoccurs]

/-- The highlights of a leaf that looks into the fields one after the other, whatever it counts. -/
theorem highlights_foldl (hmax : 1 ≤ e.config.highlight.maxFragments) {needle : Text}
    (h : needle ≠ []) (hread : PatternReader.readsTerm needle = true)
    {add : α × List Highlight → Field → α × List Highlight}
    (hadd : ∀ found field, (add found field).2 = found.2 ++ e.shownIn d needle field)
    (fields : List Field) (score : α) :
    (fields.foldl add (score, [])).2 = e.shown d needle (fields.filter (· ≠ .tags)) :=
  calc (fields.foldl add (score, [])).2
      = fields.foldl (fun shown field => shown ++ e.shownIn d needle field) [] :=
        (List.foldl_hom Prod.snd fun found field => (hadd found field).symm).symm
    _ = fields.flatMap (e.shownIn d needle) := (List.flatMap_eq_foldl ..).symm
    _ = e.shown d needle (fields.filter (· ≠ .tags)) := e.flatMap_shownIn d hmax h hread fields

variable [Score α]

theorem highlights_term (hmax : 1 ≤ e.config.highlight.maxFragments) (hne : value ≠ [])
    (hread : PatternReader.readsTerm (lower value) = true) :
    (e.term value d).highlights =
      e.shown d (lower value) [.title, .content, .path, .description, .author] := by
  have hneedle := lower_ne_nil hne
  have hadd : ∀ found field, (e.addTerm value d found field).2 =
      found.2 ++ e.shownIn d (lower value) field := by
    intro found field
    rw [addTerm, shownIn]
    split
    · next hzero =>
      rw [(occurrences_eq_zero_iff hneedle).1 hzero]
      simp
    · next hcount =>
      rw [if_pos ((occurrences_pos_iff hneedle).1 (Nat.pos_of_ne_zero hcount))]
  exact e.highlights_foldl d hmax hneedle hread hadd Field.all 0.0

theorem highlights_phrase (hmax : 1 ≤ e.config.highlight.maxFragments) (hne : value ≠ [])
    (hread : PatternReader.readsTerm (lower value) = true) :
    (e.phrase value d).highlights = e.shown d (lower value) [.title, .content, .description] := by
  have hneedle := lower_ne_nil hne
  have hadd : ∀ found field, (e.addPhrase value d found field).2 =
      found.2 ++ e.shownIn d (lower value) field := by
    intro found field
    rw [addPhrase, shownIn]
    split
    · rfl
    · rw [List.append_nil]
  have hnonempty : ¬ (lower value).isEmpty = true := by simpa using hneedle
  rw [phrase]
  simp only [hnonempty]
  exact e.highlights_foldl d hmax hneedle hread hadd Field.forPhrases 0.0

end Evaluator

/-! ## What is shown -/

/-- The highlights name, in the given order, the fields in which the needle occurs. Each has as many
fragments as occurrences are counted or more, within the greatest number of fragments. -/
structure ShowsCounted (style : HighlightStyle) (d : Document) (needle : Text)
    (fields : List Field) (highlights : List Highlight) : Prop where
  map_field : highlights.map Highlight.field =
    fields.filter fun field => occursIn needle (d.fieldText field)
  length_le : ∀ h ∈ highlights, h.fragments.length ≤ style.maxFragments
  le_length : ∀ h ∈ highlights,
    min style.maxFragments (occurrences needle (d.fieldText h.field)) ≤ h.fragments.length

variable {α : Type}

theorem Evaluator.showsCounted_shown [PatternReader] (e : Evaluator α) (d : Document)
    {needle : Text} (h : needle ≠ []) (hread : PatternReader.readsTerm needle = true)
    (fields : List Field) :
    ShowsCounted e.config.highlight d needle fields (e.shown d needle fields) := by
  constructor
  · rw [shown, List.map_map]
    exact List.map_id _
  · intro hit hhit
    obtain ⟨field, -, rfl⟩ := List.mem_map.1 hhit
    rw [HighlightStyle.length_fragments _ _ hread]
    exact Nat.min_le_left _ _
  · intro hit hhit
    obtain ⟨field, -, rfl⟩ := List.mem_map.1 hhit
    exact e.config.highlight.min_occurrences_le_length_fragments h hread _

/-- A term shows every field but the tags in which its lower case occurs, a phrase every field for
phrases, whether or not they score. The lower case of the text must not be refused. -/
theorem highlights_show_what_counts [Score α] [PatternReader] (e : Evaluator α)
    (hmax : 1 ≤ e.config.highlight.maxFragments) (d : Document) {value : Text} (hne : value ≠ [])
    (hread : PatternReader.readsTerm (lower value) = true) :
    ShowsCounted e.config.highlight d (lower value)
      [.title, .content, .path, .description, .author] (e.evaluate (.term value) d).highlights ∧
    ShowsCounted e.config.highlight d (lower value)
      [.title, .content, .description] (e.evaluate (.phrase value) d).highlights := by
  constructor
  · rw [Evaluator.evaluate, e.highlights_term d hmax hne hread]
    exact e.showsCounted_shown d (lower_ne_nil hne) hread _
  · rw [Evaluator.evaluate, e.highlights_phrase d hmax hne hread]
    exact e.showsCounted_shown d (lower_ne_nil hne) hread _

/-- Two pieces of the title are the term up to case: one is counted, and both are shown. -/
theorem highlights_show_what_counts_long_s :
    let _ : PatternReader := .standard
    let e : Evaluator Rat := ⟨.standard, []⟩
    let d := Document.ofItem 0 (.named "sſss".toList)
    let value := "SS".toList
    let highlights := (e.evaluate (.term value) d).highlights
    1 ≤ e.config.highlight.maxFragments ∧ value ≠ [] ∧
      PatternReader.readsTerm (lower value) = true ∧
      occurrences (lower value) (d.fieldText .title) = 1 ∧
      highlights.map (fun h => (h.field, h.fragments.length)) = [(.title, 2), (.path, 2)] ∧
      ShowsCounted e.config.highlight d (lower value)
        [.title, .content, .path, .description, .author] highlights := by
  intro _ e d value highlights
  have hmax : 1 ≤ e.config.highlight.maxFragments := by decide
  have hne : value ≠ [] := by decide
  exact ⟨hmax, hne, rfl, by decide +kernel, by decide +kernel,
    (highlights_show_what_counts e hmax d hne rfl).1⟩

end DocumentSearch
