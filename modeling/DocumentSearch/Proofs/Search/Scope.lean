import DocumentSearch.Proofs.Search.Evaluation
import DocumentSearch.Proofs.Search.Score

/-!
# Leaves with and without a scope

A term, a phrase or a pattern that is not scoped to a field goes through the fields in a loop of its
own, and one that is scoped counts by a rule of its own. The two agree: what a leaf without a scope
says is put together from what it says where it is scoped to one field after the other. A term
counts twice where it is scoped, so half of the sum is left.

Results:

* `Evaluator.score_inField_pos_iff`: a scoped leaf scores iff it matches and its field counts.
* `Evaluator.term_eq_gathered`, `Evaluator.phrase_eq_gathered`: the loops as sums.
* `Evaluator.isMatch_gathered_iff`: with no negative weight, a sum matches iff a part scores.
* `unscoped_leaves_are_unions`: leaves without a scope and with one.
-/

namespace DocumentSearch

open Text

/-! ## Sums of outcomes -/

namespace Evaluation

/-- The parts put together: a share of the sum of their scores, and all of their highlights. -/
def gathered (share : Rat) (parts : List (Evaluation Rat)) : Evaluation Rat :=
  .scored (share * (parts.map score).sum) (parts.flatMap highlights)

theorem foldl_eq_gathered {share : Rat} {part : Field → Evaluation Rat}
    {add : Rat × List Highlight → Field → Rat × List Highlight}
    (hadd : ∀ found field, add found field =
      (found.1 + share * (part field).score, found.2 ++ (part field).highlights))
    (fields : List Field) (found : Rat × List Highlight) :
    fields.foldl add found =
      (found.1 + share * ((fields.map part).map score).sum,
        found.2 ++ (fields.map part).flatMap highlights) := by
  induction fields generalizing found with
  | nil => simp
  | cons field fields ih =>
    rw [List.foldl_cons, ih, hadd]
    simp [mul_add, add_assoc]

theorem sum_pos_iff {parts : List (Evaluation Rat)} (h : ∀ part ∈ parts, 0 ≤ part.score) :
    0 < (parts.map score).sum ↔ ∃ part ∈ parts, 0 < part.score := by
  constructor
  · intro hpos
    exact List.exists_lt_of_sum_lt (fun _ => 0) score (by simpa using hpos)
  · rintro ⟨part, hpart, hpos⟩
    refine hpos.trans_le (List.single_le_sum ?_ _ (List.mem_map_of_mem hpart))
    simpa using h

/-- The outcome is put together from the parts: it matches iff one of them matches, its score is the
share of the sum of theirs, and it shows what they show, one after the other. -/
structure IsUnion (outcome : Evaluation Rat) (share : Rat) (parts : List (Evaluation Rat)) :
    Prop where
  isMatch_iff : outcome.isMatch = true ↔ ∃ part ∈ parts, part.isMatch = true
  score_eq : outcome.score = share * (parts.map score).sum
  highlights_eq : outcome.highlights = parts.flatMap highlights

end Evaluation

/-! ## Leaves in a field -/

namespace Evaluator

open Evaluation

variable [PatternReader] (e : Evaluator Rat) (d : Document)

/-- A leaf in a field is a miss, or it counts a positive multiple of the weight of the field. -/
theorem inField_eq_miss_or_hit (field : Field) (leaf : Query) :
    e.inField field leaf d = miss ∨ ∃ factor : Rat, 0 < factor ∧ ∃ shown,
      e.inField field leaf d = hit (factor * e.config.weights.of field) shown := by
  unfold inField
  cases leaf <;> dsimp only
  case term value =>
    split
    · exact .inl rfl
    · next hcount =>
      have hpos : (0 : Rat) < occurrences (lower value) (d.fieldText field) * 2.0 :=
        mul_pos (by exact_mod_cast Nat.pos_of_ne_zero hcount) (by decide +kernel)
      exact .inr ⟨_, hpos, _, congrArg (hit · _) (mul_right_comm _ _ _)⟩
  case phrase value =>
    split
    · exact .inl rfl
    · exact .inr ⟨1.5, by decide +kernel, _, congrArg (hit · _) (mul_comm _ _)⟩
  case wildcard pattern =>
    split
    · exact .inr ⟨1, one_pos, [], congrArg (hit · _) (one_mul _).symm⟩
    · exact .inl rfl
  all_goals exact .inl rfl

theorem score_inField_pos_iff (field : Field) (leaf : Query) :
    0 < (e.inField field leaf d).score ↔
      (e.inField field leaf d).isMatch = true ∧ 0 < e.config.weights.of field := by
  rcases e.inField_eq_miss_or_hit d field leaf with h | ⟨factor, hfactor, shown, h⟩
  · simp [h, miss, zero_rat]
  · simp [h, hit, mul_pos_iff_of_pos_left hfactor]

theorem score_inField_nonneg {field : Field} (hweight : 0 ≤ e.config.weights.of field)
    (leaf : Query) : 0 ≤ (e.inField field leaf d).score := by
  rcases e.inField_eq_miss_or_hit d field leaf with h | ⟨factor, hfactor, shown, h⟩
  · simp [h, miss, zero_rat]
  · rw [h]
    exact mul_nonneg hfactor.le hweight

/-- With no negative weight, the parts together match iff a part matches in a field that counts. -/
theorem isMatch_gathered_iff (hweights : ∀ field, 0 ≤ e.config.weights.of field) {share : Rat}
    (hshare : 0 < share) (leaf : Query) (fields : List Field) :
    (gathered share (fields.map fun field => e.inField field leaf d)).isMatch = true ↔
      ∃ field ∈ fields, (e.inField field leaf d).isMatch = true ∧
        0 < e.config.weights.of field := by
  have hnonneg : ∀ part ∈ fields.map fun field => e.inField field leaf d, 0 ≤ part.score := by
    intro part hpart
    obtain ⟨field, -, rfl⟩ := List.mem_map.1 hpart
    exact e.score_inField_nonneg d (hweights field) leaf
  have hsum : (gathered share (fields.map fun field => e.inField field leaf d)).isMatch = true ↔
      0 < share * ((fields.map fun field => e.inField field leaf d).map score).sum :=
    decide_eq_true_iff
  rw [hsum, mul_pos_iff_of_pos_left hshare, sum_pos_iff hnonneg]
  simp only [List.mem_map, exists_exists_and_eq_and, score_inField_pos_iff]

theorem isUnion_gathered (hweights : ∀ field, 0 < e.config.weights.of field) {share : Rat}
    (hshare : 0 < share) (leaf : Query) (fields : List Field) :
    let parts := fields.map fun field => e.inField field leaf d
    (gathered share parts).IsUnion share parts := by
  refine ⟨?_, rfl, rfl⟩
  rw [e.isMatch_gathered_iff d (fun field => (hweights field).le) hshare]
  simp only [List.mem_map, exists_exists_and_eq_and, hweights, and_true]

/-! ## Leaves in every field -/

variable (value : Text)

theorem term_eq_gathered : e.term value d =
    gathered (1 / 2) (Field.all.map fun field => e.inField field (.term value) d) := by
  have hadd : ∀ found field, e.addTerm value d found field =
      (found.1 + 1 / 2 * (e.inField field (.term value) d).score,
        found.2 ++ (e.inField field (.term value) d).highlights) := by
    intro found field
    have htwo : (2.0 : Rat) = 2 := by decide +kernel
    rw [addTerm, inField]
    split
    · simp [miss, zero_rat]
    · simp only [hit, htwo]
      congr 2
      ring
  rw [term_eq_scored, foldl_eq_gathered hadd, zero_rat, zero_add]
  rfl

theorem phrase_eq_gathered : e.phrase value d =
    gathered 1 (Field.forPhrases.map fun field => e.inField field (.phrase value) d) := by
  by_cases hempty : (lower value).isEmpty = true
  · have hmiss : (fun field => e.inField field (.phrase value) d) = fun _ => miss := by
      funext field
      simp [inField, hempty]
    rw [phrase, if_pos hempty, hmiss]
    simp [gathered, scored, miss, Field.forPhrases, zero_rat, Score.isPositive]
  · have hadd : ∀ found field, e.addPhrase value d found field =
        (found.1 + 1 * (e.inField field (.phrase value) d).score,
          found.2 ++ (e.inField field (.phrase value) d).highlights) := by
      intro found field
      rw [addPhrase, inField]
      cases occursIn (lower value) (d.fieldText field)
      · simp [miss, zero_rat]
      · simp [hit, hempty]
    rw [phrase_eq_scored, if_neg hempty, foldl_eq_gathered hadd, zero_rat, zero_add]
    rfl

theorem isMatch_wildcard_iff : (e.wildcard value d).isMatch = true ↔
    ∃ field ∈ Field.all, (e.inField field (.wildcard value) d).isMatch = true := by
  rw [wildcard_eq_firstField, isMatch_firstField_iff]
  simp only [isMatch_inField_wildcard_iff]

theorem score_wildcard_of_isFirst {field : Field}
    (h : IsFirst (fun field => (e.inField field (.wildcard value) d).isMatch = true)
      Field.all field) :
    (e.wildcard value d).score = 0.8 * (e.inField field (.wildcard value) d).score := by
  have hmatch := (e.isMatch_inField_wildcard_iff d value field).1 h.1
  simp only [isMatch_inField_wildcard_iff] at h
  rw [wildcard_eq_firstField, e.firstField_of_isFirst 0.8 h, inField]
  simp only [hmatch, if_true, hit]
  exact mul_comm _ _

end Evaluator

/-- With positive weights, a leaf without a scope says what it says in the fields one by one. A term
looks into all of them and counts half of what it counts in each, a phrase looks into three and
counts as much, and a pattern counts four fifths of what it counts in the first field that it
matches. -/
theorem unscoped_leaves_are_unions [PatternReader] (e : Evaluator Rat)
    (hweights : ∀ field, 0 < e.config.weights.of field) (value : Text) (d : Document) :
    let within (leaf : Query) (field : Field) := e.evaluate (.field field.name leaf) d
    let fields := [Field.title, .content, .path, .tags, .description, .author]
    (e.evaluate (.term value) d).IsUnion (1 / 2) (fields.map (within (.term value))) ∧
    (e.evaluate (.phrase value) d).IsUnion 1
      ([Field.title, .content, .description].map (within (.phrase value))) ∧
    ((e.evaluate (.wildcard value) d).isMatch = true ↔
      ∃ field ∈ fields, (within (.wildcard value) field).isMatch = true) ∧
    ∀ field, IsFirst (fun field => (within (.wildcard value) field).isMatch = true) fields field →
      (e.evaluate (.wildcard value) d).score = 0.8 * (within (.wildcard value) field).score := by
  intro within fields
  have hwithin (leaf : Query) : within leaf = fun field => e.inField field leaf d :=
    funext fun field => e.evaluate_field field leaf d
  simp only [hwithin, Evaluator.evaluate]
  refine ⟨?_, ?_, e.isMatch_wildcard_iff d value, fun field h => ?_⟩
  · rw [e.term_eq_gathered]
    exact e.isUnion_gathered d hweights (by norm_num) (.term value) fields
  · rw [e.phrase_eq_gathered]
    exact e.isUnion_gathered d hweights one_pos (.phrase value) Field.forPhrases
  · exact e.score_wildcard_of_isFirst d value h

/-- A term that occurs in the title, in the path and in the tags, but not in the other fields. -/
theorem unscoped_leaves_are_unions_hooks :
    let _ : PatternReader := .standard
    let e : Evaluator Rat := ⟨.standard, []⟩
    let d := Document.ofItem 0 ((Item.named "hooks".toList).withTags ["hooks".toList])
    let within (leaf : Query) (field : Field) := e.evaluate (.field field.name leaf) d
    let parts := [Field.title, .content, .path, .tags, .description, .author].map
      (within (.term "Hooks".toList))
    (∀ field, 0 < e.config.weights.of field) ∧ parts.map (·.score) = [6, 0, 4, 5, 0, 0] ∧
      (e.evaluate (.term "Hooks".toList) d).IsUnion (1 / 2) parts ∧
      (e.evaluate (.wildcard "H?ok*".toList) d).score =
        0.8 * (within (.wildcard "H?ok*".toList) .title).score := by
  intro _ e d within parts
  have hweights (field : Field) : 0 < e.config.weights.of field := by
    cases field <;> decide +kernel
  refine ⟨hweights, by decide +kernel, ?_, ?_⟩
  · exact (unscoped_leaves_are_unions e hweights "Hooks".toList d).1
  · refine (unscoped_leaves_are_unions e hweights "H?ok*".toList d).2.2.2 .title ?_
    exact ⟨by decide +kernel, [], _, rfl, by simp⟩

end DocumentSearch
