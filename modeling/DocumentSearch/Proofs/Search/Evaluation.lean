import DocumentSearch.Proofs.Lists
import DocumentSearch.Proofs.Text.Occurrence
import DocumentSearch.Search.Evaluation

/-!
# Laws of evaluation

Reading the patterns of a query ahead changes nothing, the operators combine what their operands
match, and terms and phrases add up what they find field by field.

Results:

* `Compiled.isTableOf_ofQuery`: what is read ahead for a query.
* `Compiled.IsTableOf.pattern?_eq`: a pattern that was read ahead is the pattern read now.
* `Evaluator.evaluate_forQuery`: an evaluator made for a query evaluates like any other one.
* `Evaluator.isMatch_inField_term_iff` and its siblings: what leaves in a field match.
* `Evaluator.isMatch_firstField_iff`, `Evaluator.firstField_of_isFirst`: what patterns and fuzzy
  terms match, and the field that counts.
* `Evaluator.term_induction`, `Evaluator.phrase_induction`: what every field keeps holds of the
  score and the highlights of a term and of a phrase.
-/

namespace DocumentSearch

open Text

/-! ## Patterns -/

namespace Compiled

variable [PatternReader] {compiled : Compiled} {patterns : List Text}

/-- The table has the patterns of the list as its keys, each of them once and with its own
reading. -/
structure IsTableOf (compiled : Compiled) (patterns : List Text) : Prop where
  nodup : (compiled.map Prod.fst).Nodup
  mem_iff : ∀ p reading, (p, reading) ∈ compiled ↔ p ∈ patterns ∧ reading = PatternReader.read? p

theorem IsTableOf.nil : IsTableOf [] [] := ⟨List.nodup_nil, by simp⟩

theorem IsTableOf.mem_keys_iff (h : compiled.IsTableOf patterns) (p : Text) :
    p ∈ compiled.map Prod.fst ↔ p ∈ patterns := by
  simp [h.mem_iff]

/-- A pattern that is there already is not read again, and another one gets its reading. -/
theorem IsTableOf.add (h : compiled.IsTableOf patterns) (p : Text) :
    (compiled.add p).IsTableOf (patterns ++ [p]) := by
  unfold Compiled.add
  split
  · next hfound =>
    have hp := (h.mem_keys_iff p).1 (lookup_isSome_iff.1 hfound)
    refine ⟨h.nodup, fun p' reading => ?_⟩
    rw [h.mem_iff, List.mem_append]
    grind
  · next hmissing =>
    have hkeys : p ∉ compiled.map Prod.fst := by rwa [← lookup_isSome_iff]
    refine ⟨?_, fun p' reading => ?_⟩
    · rw [List.map_append, List.nodup_append]
      refine ⟨h.nodup, by simp, ?_⟩
      rintro key hkey key' hkey' rfl
      cases List.mem_singleton.1 hkey'
      exact hkeys hkey
    · rw [List.mem_append, h.mem_iff, List.mem_append]
      grind

theorem IsTableOf.foldl_add (h : compiled.IsTableOf patterns) (more : List Text) :
    (more.foldl Compiled.add compiled).IsTableOf (patterns ++ more) := by
  induction more generalizing compiled patterns with
  | nil => simpa using h
  | cons p more ih => simpa using ih (h.add p)

theorem isTableOf_ofQuery (q : Query) : (ofQuery q).IsTableOf q.patterns :=
  IsTableOf.nil.foldl_add q.patterns

/-- A pattern that was read ahead is the pattern read now. -/
theorem IsTableOf.pattern?_eq (h : compiled.IsTableOf patterns) (p : Text) :
    compiled.pattern? p = PatternReader.read? p := by
  unfold pattern?
  split
  · next reading hreading =>
    exact ((h.mem_iff p reading).1 ((lookup_eq_some_iff_mem h.nodup).1 hreading)).2
  · rfl

end Compiled

theorem Field.ofScope?_name (f : Field) : Field.ofScope? f.name = some f := by cases f <;> decide

namespace Evaluator

variable {α : Type} [Score α]

/-! ## Evaluators -/

section PatternReaders

variable [PatternReader]

/-- The evaluation of a query rests on the configuration and on the meaning of the patterns only. -/
theorem evaluate_congr (config : Config α) {compiled compiled' : Compiled}
    (h : ∀ p, compiled.pattern? p = compiled'.pattern? p) (q : Query) (d : Document) :
    (⟨config, compiled⟩ : Evaluator α).evaluate q d = evaluate ⟨config, compiled'⟩ q d := by
  induction q with
  | term _ | phrase _ | fuzzy _ _ => rfl
  | wildcard pattern => simp only [evaluate, wildcard, Compiled.isMatch, h]
  | field name inner =>
    simp only [evaluate]
    split
    · cases inner <;> simp only [inField, Compiled.isMatch, h]
      all_goals rfl
    · rfl
  | group inner ih => exact ih
  | unary op operand ih => cases op <;> simp only [evaluate, ih]
  | binary op left right ihLeft ihRight => cases op <;> simp only [evaluate, ihLeft, ihRight]

theorem evaluate_forQuery (config : Config α) (q q' : Query) (d : Document) :
    (forQuery config q).evaluate q' d = evaluate ⟨config, []⟩ q' d :=
  evaluate_congr config (fun p => (Compiled.isTableOf_ofQuery q).pattern?_eq p) q' d

theorem evaluate_field (e : Evaluator α) (field : Field) (leaf : Query) (d : Document) :
    e.evaluate (.field field.name leaf) d = e.inField field leaf d := by
  rw [evaluate, Field.ofScope?_name]

end PatternReaders

/-! ## What leaves in a field match -/

section Leaves

variable [PatternReader] (e : Evaluator α) (d : Document) (value : Text) (field : Field)

theorem isMatch_inField_term_iff :
    (e.inField field (.term value) d).isMatch = true ↔
      lower value ≠ [] ∧ lower value <:+: d.fieldText field := by
  rw [← occurrences_ne_zero_iff, inField]
  split <;> simp [*, Evaluation.hit, Evaluation.miss]

theorem isMatch_inField_phrase_iff :
    (e.inField field (.phrase value) d).isMatch = true ↔
      lower value ≠ [] ∧ lower value <:+: d.fieldText field := by
  rw [← occursIn_iff, inField]
  cases occursIn (lower value) (d.fieldText field) <;> cases lower value <;>
    simp [Evaluation.hit, Evaluation.miss]

theorem isMatch_inField_wildcard_iff :
    (e.inField field (.wildcard value) d).isMatch = true ↔
      e.compiled.isMatch value (d.fieldText field) = true := by
  rw [inField]
  cases e.compiled.isMatch value (d.fieldText field) <;>
    simp [Evaluation.hit, Evaluation.miss]

end Leaves

/-! ## What operators match -/

section Operators

variable [PatternReader] (e : Evaluator α) (p q : Query) (d : Document)

@[simp] theorem evaluate_group : e.evaluate q.group d = e.evaluate q d := rfl

@[simp] theorem isMatch_evaluate_and :
    (e.evaluate (p.and q) d).isMatch = ((e.evaluate p d).isMatch && (e.evaluate q d).isMatch) := rfl

@[simp] theorem isMatch_evaluate_or :
    (e.evaluate (p.or q) d).isMatch = ((e.evaluate p d).isMatch || (e.evaluate q d).isMatch) := rfl

@[simp] theorem isMatch_evaluate_not :
    (e.evaluate q.not d).isMatch = !(e.evaluate q d).isMatch := rfl

end Operators

/-! ## The first field

Patterns and fuzzy terms stop at the first field that passes their test. -/

section FirstField

variable (e : Evaluator α) (fields : List Field) (passes : Field → Bool) (factor : α)

/-- The first of the fields that passes the test counts its weight times the factor. -/
def firstField : Evaluation α :=
  match fields.find? passes with
  | some field => Evaluation.hit (e.config.weights.of field * factor) []
  | none => Evaluation.miss

theorem wildcard_eq_firstField [PatternReader] (pattern : Text) (d : Document) :
    e.wildcard pattern d = e.firstField Field.all
      (fun field => e.compiled.isMatch pattern (d.fieldText field)) 0.8 :=
  rfl

theorem fuzzy_eq_firstField (term : Text) (distance : Nat) (d : Document) :
    e.fuzzy term distance d = e.firstField Field.forFuzzyTerms
      (fun field => (words (d.fieldText field)).any fun w =>
        editDistance (lower term) w ≤ distance) 0.7 :=
  rfl

theorem isMatch_firstField_iff : (e.firstField fields passes factor).isMatch = true ↔
    ∃ field ∈ fields, passes field = true := by
  rw [← List.find?_isSome, firstField]
  cases fields.find? passes <;> simp [Evaluation.hit, Evaluation.miss]

variable {fields passes}

theorem firstField_of_isFirst {field : Field}
    (h : IsFirst (fun field => passes field = true) fields field) :
    e.firstField fields passes factor = .hit (e.config.weights.of field * factor) [] := by
  rw [firstField, find?_eq_some_iff_isFirst.2 h]

end FirstField

/-! ## Terms and phrases

Both go through fields, and a field adds to the score and to the highlights or does nothing. What
holds of no score and no highlights, and is kept where a field adds something, holds at the end. -/

section Fields

variable [PatternReader] (e : Evaluator α) (value : Text) (d : Document)

/-- What a field adds to the score and to the highlights of a term. -/
def addTerm (found : α × List Highlight) (field : Field) : α × List Highlight :=
  let count := occurrences (lower value) (d.fieldText field)
  if count = 0 then found
  else (found.1 + Score.ofCount count * e.config.weights.of field,
    found.2 ++ (e.highlight? field (d.fieldText field) (lower value)).toList)

/-- What a field adds to the score and to the highlights of a phrase. -/
def addPhrase (found : α × List Highlight) (field : Field) : α × List Highlight :=
  if occursIn (lower value) (d.fieldText field) then
    (found.1 + e.config.weights.of field * 1.5,
      found.2 ++ (e.highlight? field (d.fieldText field) (lower value)).toList)
  else found

theorem term_eq_scored : e.term value d =
    let found := Field.all.foldl (e.addTerm value d) (0.0, [])
    .scored found.1 found.2 :=
  rfl

theorem phrase_eq_scored : e.phrase value d =
    let found := Field.forPhrases.foldl (e.addPhrase value d) (0.0, [])
    if (lower value).isEmpty then .miss else .scored found.1 found.2 :=
  rfl

theorem isMatch_term : (e.term value d).isMatch = Score.isPositive (e.term value d).score := rfl

/-- The score of a term, field by field. -/
theorem score_term : (e.term value d).score = Field.all.foldl (fun score field =>
    if occurrences (lower value) (d.fieldText field) = 0 then score
    else score + Score.ofCount (occurrences (lower value) (d.fieldText field)) *
      e.config.weights.of field) 0.0 := by
  have h : (e.term value d).score = (Field.all.foldl (e.addTerm value d) (0.0, [])).1 := rfl
  rw [h]
  refine (List.foldl_hom Prod.fst fun found field => ?_).symm
  rw [addTerm]
  split <;> rfl

variable {value d} {motive : α → List Highlight → Prop}

theorem term_induction (zero : motive 0.0 [])
    (add : ∀ score highlights field count, motive score highlights →
      motive (score + Score.ofCount (count + 1) * e.config.weights.of field)
        (highlights ++ (e.highlight? field (d.fieldText field) (lower value)).toList)) :
    motive (e.term value d).score (e.term value d).highlights := by
  refine List.foldlRecOn Field.all (e.addTerm value d) (b := (0.0, []))
    (motive := fun found => motive found.1 found.2) zero fun found hfound field _ => ?_
  rw [addTerm]
  split
  · exact hfound
  · next hcount =>
    obtain ⟨count, hcount⟩ := Nat.exists_eq_succ_of_ne_zero hcount
    rw [hcount]
    exact add _ _ _ _ hfound

theorem phrase_induction (zero : motive 0.0 [])
    (add : ∀ score highlights field, motive score highlights →
      motive (score + e.config.weights.of field * 1.5)
        (highlights ++ (e.highlight? field (d.fieldText field) (lower value)).toList)) :
    motive (e.phrase value d).score (e.phrase value d).highlights := by
  unfold phrase
  dsimp only
  split
  · exact zero
  · refine List.foldlRecOn Field.forPhrases (e.addPhrase value d) (b := (0.0, []))
      (motive := fun found => motive found.1 found.2) zero fun found hfound field _ => ?_
    rw [addPhrase]
    split
    · exact add _ _ _ hfound
    · exact hfound

end Fields

end Evaluator

end DocumentSearch
