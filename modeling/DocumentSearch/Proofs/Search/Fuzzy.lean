import DocumentSearch.Proofs.Search.Evaluation
import DocumentSearch.Proofs.Search.Score
import DocumentSearch.Proofs.Text.EditDistance
import DocumentSearch.Proofs.Text.WhiteSpace

/-!
# Fuzzy terms

A fuzzy term looks for a word that it can become by a number of edits. Whichever edits lead to the
word, there is none if the distance is greater, so what is asked is whether any edits lead there;
and edits of the term can be made up for by allowing as many more.

Results:

* `any_editDistance_le_iff`: some word of a text is near enough iff edits lead to it.
* `fuzzy_matches_near_words`: what a fuzzy term matches, and what it scores.
-/

namespace DocumentSearch

open Text

/-- The needle becomes a word of the text by at most the given number of edits. -/
def HasNearWord (needle : Text) (distance : Nat) (t : Text) : Prop :=
  ∃ w, IsWordOf w t ∧ ∃ k ≤ distance, Edits k needle w

theorem any_editDistance_le_iff {needle t : Text} {distance : Nat} :
    ((words t).any fun w => editDistance needle w ≤ distance) = true ↔
      HasNearWord needle distance t := by
  simp only [List.any_eq_true, decide_eq_true_eq, mem_words_iff, HasNearWord, exists_edits_iff]

/-- Needles that are near to each other are near to the same words. -/
theorem HasNearWord.of_editDistance_le {needle needle' t : Text} {n m : Nat}
    (h : HasNearWord needle n t) (hnear : editDistance needle' needle ≤ m) :
    HasNearWord needle' (n + m) t := by
  obtain ⟨w, hw, hedits⟩ := h
  have hn : editDistance needle w ≤ n := exists_edits_iff.1 hedits
  have htriangle := editDistance_triangle needle' needle w
  exact ⟨w, hw, exists_edits_iff.2 (by omega)⟩

namespace Evaluator

variable {α : Type} [Score α] (e : Evaluator α) (d : Document) {term : Text} {distance : Nat}

theorem isMatch_fuzzy_iff : (e.fuzzy term distance d).isMatch = true ↔
    ∃ field ∈ Field.forFuzzyTerms, HasNearWord (lower term) distance (d.fieldText field) := by
  rw [fuzzy_eq_firstField, isMatch_firstField_iff]
  simp only [any_editDistance_le_iff]

theorem score_fuzzy_of_isFirst {field : Field}
    (h : IsFirst (fun field => HasNearWord (lower term) distance (d.fieldText field))
      Field.forFuzzyTerms field) :
    (e.fuzzy term distance d).score = e.config.weights.of field * 0.7 := by
  simp only [← any_editDistance_le_iff] at h
  rw [fuzzy_eq_firstField, e.firstField_of_isFirst 0.7 h, Evaluation.hit]

end Evaluator

variable {α : Type} [Score α]

/-- The distance of two texts is the least number of characters to be inserted, deleted or replaced
one after the other that turns the first into the second. A fuzzy term matches iff a word of some
field but the tags can be reached by as many edits as the distance allows; the first such field
counts seven tenths of its weight. A term that is some edits away from it matches with as many edits
more. -/
theorem fuzzy_matches_near_words [PatternReader] (e : Evaluator α) :
    (∀ a b : Text, IsLeast {n | Edits n a b} (editDistance a b)) ∧
    (∀ (term : Text) (distance : Nat) (d : Document),
      let fields := [Field.title, .content, .path, .description, .author]
      let near (field : Field) := ∃ w, IsWordOf w (d.fieldText field) ∧
        ∃ k ≤ distance, Edits k (lower term) w
      let outcome := e.evaluate (.fuzzy term distance) d
      (outcome.isMatch = true ↔ ∃ field ∈ fields, near field) ∧
      ∀ field, IsFirst near fields field → outcome.score = e.config.weights.of field * 0.7) ∧
    ∀ (term term' : Text) (distance edits : Nat) (d : Document),
      (e.evaluate (.fuzzy term distance) d).isMatch = true →
      editDistance (lower term') (lower term) ≤ edits →
      (e.evaluate (.fuzzy term' (distance + edits)) d).isMatch = true := by
  refine ⟨isLeast_editDistance, fun term distance d => ⟨e.isMatch_fuzzy_iff d, ?_⟩, ?_⟩
  · exact fun field hfirst => e.score_fuzzy_of_isFirst d hfirst
  · intro term term' distance edits d hmatch hedits
    obtain ⟨field, hfield, hnear⟩ := (e.isMatch_fuzzy_iff d).1 hmatch
    exact (e.isMatch_fuzzy_iff d).2 ⟨field, hfield, hnear.of_editDistance_le hedits⟩

/-- The second word of the title is one edit from the term, and two from a term that differs in its
last letter. -/
theorem fuzzy_matches_near_words_kitten :
    let _ : PatternReader := .standard
    let e : Evaluator Rat := ⟨.standard, []⟩
    let d := Document.ofItem 0 (.named "the Kitten".toList)
    (e.evaluate (.fuzzy "Sitten".toList 1) d).isMatch = true ∧
      (e.evaluate (.fuzzy "Sitten".toList 1) d).score = 3.0 * 0.7 ∧
      editDistance (lower "sittin".toList) (lower "Sitten".toList) ≤ 1 ∧
      (e.evaluate (.fuzzy "sittin".toList 1) d).isMatch = false ∧
      (e.evaluate (.fuzzy "sittin".toList 2) d).isMatch = true := by
  intro _ e d
  obtain ⟨-, hfuzzy, hmore⟩ := fuzzy_matches_near_words e
  have hword : IsWordOf "kitten".toList (d.fieldText .title) :=
    mem_words_iff.1 (by decide)
  have hedit : Edits 1 (lower "Sitten".toList) "kitten".toList := by
    rw [show lower "Sitten".toList = "sitten".toList by decide]
    exact .step (.replace [] 's' 'k' "itten".toList) (.refl _)
  have hmatch : (e.evaluate (.fuzzy "Sitten".toList 1) d).isMatch = true :=
    (hfuzzy _ 1 d).1.2 ⟨.title, by simp, _, hword, 1, le_rfl, hedit⟩
  have hnear : editDistance (lower "sittin".toList) (lower "Sitten".toList) ≤ 1 := by decide
  refine ⟨hmatch, ?_, hnear, by decide +kernel, ?_⟩
  · exact (hfuzzy _ 1 d).2 .title ⟨⟨_, hword, 1, le_rfl, hedit⟩, [], _, rfl, by simp⟩
  · exact hmore "Sitten".toList "sittin".toList 1 1 d hmatch hnear

end DocumentSearch
