import DocumentSearch.Proofs.Search.Ranking

/-!
# The scale of the weights

Only the proportions of the weights matter. A query without negations counts nothing but weights and
multiples of weights, and all that is done with them, adding, taking the greater one, asking whether
there is anything above zero and comparing, goes the same way on every scale. A negation counts one
whatever the weights, so with a negation the scale matters.

Results:

* `evaluate_scaled`: the outcome of a query on another scale.
* `rank_scaled`: so the same documents are found, and in the same order.
* `scaling_weights_keeps_ranking`: both for the texts that are searched for.
-/

namespace DocumentSearch

open Text

variable (c : Rat)

/-! ## Scales -/

/-- All weights multiplied by a factor. -/
def Weights.scaled (w : Weights Rat) : Weights Rat where
  title := c * w.title
  tags := c * w.tags
  path := c * w.path
  description := c * w.description
  content := c * w.content
  author := c * w.author

/-- The configuration with all weights multiplied by a factor. -/
def Config.scaled (config : Config Rat) : Config Rat :=
  { config with weights := config.weights.scaled c }

/-- The outcome with a score that is multiplied by a factor. -/
def Evaluation.scaled (outcome : Evaluation Rat) : Evaluation Rat :=
  { outcome with score := c * outcome.score }

/-- The result with a score that is multiplied by a factor. -/
def Result.scaled (r : Result Rat) : Result Rat := { r with score := c * r.score }

@[simp] theorem Weights.of_scaled (w : Weights Rat) (field : Field) :
    (w.scaled c).of field = c * w.of field := by cases field <;> rfl

/-! ## Outcomes -/

namespace Evaluation

@[simp] theorem scaled_miss : (miss : Evaluation Rat).scaled c = miss := by
  simp [scaled, miss, zero_rat]

@[simp] theorem scaled_hit (score : Rat) (highlights : List Highlight) :
    (hit score highlights).scaled c = hit (c * score) highlights := rfl

theorem scaled_both (left right : Evaluation Rat) :
    (Evaluator.both left right).scaled c = Evaluator.both (left.scaled c) (right.scaled c) := by
  simp only [scaled, Evaluator.both, mul_ite, mul_add, zero_rat, mul_zero]

variable {c} (hc : 0 < c)
include hc

theorem scaled_scored (score : Rat) (highlights : List Highlight) :
    (Evaluation.scored score highlights).scaled c = .scored (c * score) highlights := by
  simp [scaled, Evaluation.scored, Score.isPositive, mul_pos_iff_of_pos_left hc]

theorem scaled_either (left right : Evaluation Rat) :
    (Evaluator.either left right).scaled c = Evaluator.either (left.scaled c) (right.scaled c) := by
  have hscore : c * Score.greater left.score right.score =
      Score.greater (c * left.score) (c * right.score) := mul_max_of_nonneg _ _ hc.le
  simp only [scaled, Evaluator.either, hscore]
  rfl

end Evaluation

/-! ## Queries -/

namespace Evaluator

open Evaluation

/-- The evaluator with all weights multiplied by a factor. -/
def scaled (e : Evaluator Rat) : Evaluator Rat := { e with config := e.config.scaled c }

variable (e : Evaluator Rat) (d : Document)

@[simp] theorem weights_of_scaled (field : Field) :
    (e.scaled c).config.weights.of field = c * e.config.weights.of field :=
  Weights.of_scaled c e.config.weights field

theorem firstField_scaled (fields : List Field) (passes : Field → Bool) (factor : Rat) :
    (e.scaled c).firstField fields passes factor =
      (e.firstField fields passes factor).scaled c := by
  unfold firstField
  split
  · rw [weights_of_scaled, mul_assoc, scaled_hit]
  · rw [scaled_miss]

variable [PatternReader]

theorem inField_scaled (field : Field) (leaf : Query) :
    (e.scaled c).inField field leaf d = (e.inField field leaf d).scaled c := by
  unfold inField
  cases leaf <;> dsimp only
  case term value =>
    split
    · rw [scaled_miss]
    · rw [scaled_hit, weights_of_scaled, mul_left_comm, mul_assoc]
      rfl
  case phrase value =>
    split
    · rw [scaled_miss]
    · rw [scaled_hit, weights_of_scaled, mul_assoc]
      rfl
  case wildcard pattern =>
    rw [apply_ite (Evaluation.scaled c), scaled_miss, scaled_hit, weights_of_scaled]
    rfl
  all_goals exact (scaled_miss c).symm

omit [PatternReader] in
/-- What a field adds is multiplied, and so is the sum. -/
theorem foldl_scaled {add add' : Rat × List Highlight → Field → Rat × List Highlight}
    (hadd : ∀ found field, add' (Prod.map (c * ·) id found) field =
      Prod.map (c * ·) id (add found field)) (fields : List Field) :
    fields.foldl add' (0.0, []) = Prod.map (c * ·) id (fields.foldl add (0.0, [])) := by
  rw [← List.foldl_hom _ hadd]
  simp [zero_rat]

variable {c} (hc : 0 < c) (value : Text)
include hc

theorem term_scaled : (e.scaled c).term value d = (e.term value d).scaled c := by
  have hadd : ∀ found field, (e.scaled c).addTerm value d (Prod.map (c * ·) id found) field =
      Prod.map (c * ·) id (e.addTerm value d found field) := by
    intro found field
    unfold addTerm
    dsimp only
    split
    · rfl
    · rw [weights_of_scaled, mul_left_comm, Prod.map_fst, ← mul_add]
      rfl
  rw [term_eq_scored, term_eq_scored, foldl_scaled c hadd]
  exact (scaled_scored hc _ _).symm

theorem phrase_scaled : (e.scaled c).phrase value d = (e.phrase value d).scaled c := by
  have hadd : ∀ found field, (e.scaled c).addPhrase value d (Prod.map (c * ·) id found) field =
      Prod.map (c * ·) id (e.addPhrase value d found field) := by
    intro found field
    unfold addPhrase
    split
    · rw [weights_of_scaled, mul_assoc, Prod.map_fst, ← mul_add]
      rfl
    · rfl
  rw [phrase_eq_scored, phrase_eq_scored, foldl_scaled c hadd]
  split
  · rw [scaled_miss]
  · exact (scaled_scored hc _ _).symm

/-- A query without negations has the same outcome on every scale, but for its score. -/
theorem evaluate_scaled {q : Query} (hq : .not ∉ q.operators) :
    (e.scaled c).evaluate q d = (e.evaluate q d).scaled c := by
  induction q with
  | term value => exact e.term_scaled d hc value
  | phrase value => exact e.phrase_scaled d hc value
  | wildcard pattern => exact e.firstField_scaled c _ _ _
  | fuzzy word distance => exact e.firstField_scaled c _ _ _
  | field name inner =>
    rw [evaluate, evaluate]
    split
    · exact e.inField_scaled c d _ inner
    · rw [scaled_miss]
  | group inner ih => exact ih hq
  | unary op operand ih =>
    obtain ⟨hop, hoperand⟩ := not_or.1 (mt List.mem_cons.2 hq)
    cases op with
    | not => exact absurd rfl hop
    | and | or => exact ih hoperand
  | binary op left right ihLeft ihRight =>
    simp only [Query.operators, List.mem_append, List.mem_cons, not_or] at hq
    obtain ⟨hleft, hop, hright⟩ := hq
    cases op with
    | not => exact absurd rfl hop
    | and => rw [evaluate, evaluate, ihLeft hleft, ihRight hright, scaled_both]
    | or => rw [evaluate, evaluate, ihLeft hleft, ihRight hright, scaled_either hc]

end Evaluator

/-! ## Results -/

section Results

variable {c} (hc : 0 < c)
include hc

theorem best_scaled (results : List (Result Rat)) (limit : Nat) :
    best (results.map (Result.scaled c)) limit = (best results limit).map (Result.scaled c) := by
  have hatMost (r s : Result Rat) : Score.atMost s.score r.score =
      Score.atMost (s.scaled c).score (r.scaled c).score :=
    decide_eq_decide.2 (mul_le_mul_iff_right₀ hc).symm
  rw [best, best, List.map_take]
  exact congrArg (List.take limit) (List.map_mergeSort fun r _ s _ => hatMost r s).symm

variable [PatternReader] (config : Config Rat) {q : Query} (hq : .not ∉ q.operators)
  (documents : List Document)
include hq

theorem matching_scaled : matching (config.scaled c) q documents =
    (matching config q documents).map (Result.scaled c) := by
  have hscaled (d : Document) : (⟨config.scaled c, []⟩ : Evaluator Rat).evaluate q d =
      ((⟨config, []⟩ : Evaluator Rat).evaluate q d).scaled c :=
    Evaluator.evaluate_scaled ⟨config, []⟩ d hc hq
  rw [matching_eq, matching_eq, List.map_filterMap]
  refine List.filterMap_congr fun d _ => ?_
  rw [outcomeOf, hscaled, Evaluation.scaled]
  cases ((⟨config, []⟩ : Evaluator Rat).evaluate q d).isMatch <;> rfl

/-- The same documents are found on every scale, in the same order and with scores on that scale. -/
theorem rank_scaled (limit : Nat) : rank (config.scaled c) q documents limit =
    (rank config q documents limit).map (Result.scaled c) := by
  rw [rank, rank, matching_scaled hc config hq, best_scaled hc]

end Results

/-- With all weights multiplied by a positive factor, a query without negations matches the same
documents with the same highlights, and its scores are multiplied by the factor. So a search for a
text without a `NOT` finds the same documents in the same order. The weights can be zero or
negative, and patterns can be refused. -/
theorem scaling_weights_keeps_ranking [PatternReader] {c : Rat} (hc : 0 < c) (config : Config Rat) :
    (∀ (compiled : Compiled) (q : Query) (d : Document), .not ∉ q.operators →
      let outcome := (⟨config, compiled⟩ : Evaluator Rat).evaluate q d
      let outcome' := (⟨config.scaled c, compiled⟩ : Evaluator Rat).evaluate q d
      outcome'.isMatch = outcome.isMatch ∧ outcome'.highlights = outcome.highlights ∧
        outcome'.score = c * outcome.score) ∧
    ∀ (documents : List Document) (t : Text) (ts : List Token) (q : Query) (limit : Nat),
      tokenize t = .ok ts → .not ∉ ts → Query.ofText t = .ok q →
      let results := (⟨config, documents⟩ : Index Rat).searchWithLimit t limit
      let results' := (⟨config.scaled c, documents⟩ : Index Rat).searchWithLimit t limit
      results'.map (·.id) = results.map (·.id) := by
  refine ⟨fun compiled q d hq => ?_, fun documents t ts q limit ht hts h => ?_⟩
  · have hscaled := Evaluator.evaluate_scaled ⟨config, compiled⟩ d hc hq
    exact ⟨congrArg (·.isMatch) hscaled, congrArg (·.highlights) hscaled,
      congrArg (·.score) hscaled⟩
  · obtain ⟨ts', ht', hq⟩ := bind_eq_ok_iff.1 h
    cases ht.symm.trans ht'
    have hnegation := mt (derives_of_ofTokens_eq_ok hq).1.negation_mem_operators_iff.1 hts
    dsimp only
    rw [searchWithLimit_of_ofText_eq_ok _ h, searchWithLimit_of_ofText_eq_ok _ h,
      rank_scaled hc config hnegation, List.map_map]
    rfl

/-- A negative weight, and one that is zero: a document is found although it scores nothing. -/
theorem scaling_weights_keeps_ranking_thirds :
    let _ : PatternReader := .standard
    let config : Config Rat := { weights := { Weights.standard with tags := 0, path := -2 } }
    let documents := Index.documentsOf
      [(Item.named ['a']).withTags [['x']], .named ['x'], (Item.named ['b']).withMarkdown ['x']]
    let text := "x OR tags:\"x\"".toList
    let q := (Query.term ['x']).or (.field "tags".toList (.phrase ['x']))
    let ids (config : Config Rat) :=
      ((⟨config, documents⟩ : Index Rat).searchWithLimit text 3).map (·.id)
    let score (config : Config Rat) (d : Document) :=
      ((⟨config, []⟩ : Evaluator Rat).evaluate q d).score
    (0 : Rat) < 1 / 3 ∧ .not ∉ q.operators ∧ Query.ofText text = .ok q ∧
      documents.map (score config) = [0, 1, 1] ∧
      (∀ d, score (config.scaled (1 / 3)) d = 1 / 3 * score config d) ∧
      ids (config.scaled (1 / 3)) = ids config := by
  have hc : (0 : Rat) < 1 / 3 := by decide +kernel
  have htokens : tokenize "x OR tags:\"x\"".toList =
      .ok [.word ['x'], .or, .field "tags".toList (.phrase ['x'])] := by cbv
  have hq : Query.ofText "x OR tags:\"x\"".toList =
      .ok ((Query.term ['x']).or (.field "tags".toList (.phrase ['x']))) := by cbv
  intro _
  obtain ⟨hevaluate, hsearch⟩ := scaling_weights_keeps_ranking hc
    { weights := { Weights.standard with tags := 0, path := -2 } }
  refine ⟨hc, by decide, hq, by decide +kernel, ?_, ?_⟩
  · exact fun d => (hevaluate [] _ d (by decide)).2.2
  · exact hsearch _ _ _ _ 3 htokens (by decide) hq

/-- With a `NOT` the scale matters, since a document that is not excluded counts one. -/
example :
    let _ : PatternReader := .standard
    let documents := Index.documentsOf [.named ['x'], .named ['y']]
    let q := (Query.term ['x']).or (Query.term ['x']).not
    let score (config : Config Rat) (d : Document) :=
      ((⟨config, []⟩ : Evaluator Rat).evaluate q d).score
    documents.map (score .standard) = [5, 1] ∧
      documents.map (score (Config.standard.scaled (1 / 10))) = [1 / 2, 1] := by
  decide +kernel

end DocumentSearch
