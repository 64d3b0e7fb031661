import DocumentSearch.Proofs.Search.Fuzzy
import DocumentSearch.Proofs.Search.Scope
import DocumentSearch.Proofs.Text.LowerCase
import DocumentSearch.Proofs.Text.Occurrence
import DocumentSearch.Proofs.Text.Wildcard

/-!
# Documents that grow

Code that is attached to an item goes on behind its content on a new line. The line feed keeps the
lower case of the content as it was, also that of a sigma at its end, and keeps its words whole; so
whatever occurs in the content, matches it or is a word of it does so afterwards. A query without
negations cannot lose a document by that, though its score can fall.

Results:

* `Document.content_ofItem_attach`, `Document.isContinuedBy_ofItem_attach`: what attached code does
  to the content of a document, and what it leaves of the fields.
* `Evaluator.isMatch_inField_of_isContinuedBy`: a leaf keeps what it matches in a field that grows.
* `Evaluator.isMatch_evaluate_of_isContinuedBy`: a query without negations keeps what it matches.
* `isMatch_evaluate_attach`: attaching code hides no document.
-/

namespace DocumentSearch

open Text

/-! ## Texts that go on -/

namespace Text

/-- The second text is the first one, or goes on behind it on a new line. -/
def IsContinuedBy (t t' : Text) : Prop := t' = t ∨ ∃ u, t' = t ++ '\n' :: u

namespace IsContinuedBy

variable {t t' : Text}

theorem isPrefix (h : IsContinuedBy t t') : t <+: t' := by
  rcases h with rfl | ⟨u, rfl⟩
  · exact List.prefix_rfl
  · exact List.prefix_append t _

theorem isMatch (h : IsContinuedBy t t') {w : Wildcard} (hmatch : w.isMatch t = true) :
    w.isMatch t' = true := by
  obtain ⟨u, rfl⟩ := h.isPrefix
  exact Wildcard.isMatch_append hmatch u

theorem mem_words (h : IsContinuedBy t t') {w : Text} (hw : w ∈ words t) : w ∈ words t' := by
  rcases h with rfl | ⟨u, rfl⟩
  · exact hw
  · rw [words_append_of_isWhiteSpace (by decide)]
    exact List.mem_append_left _ hw

end IsContinuedBy

/-- A line feed is neither cased nor case-ignorable, and no sigma looks beyond it. -/
theorem lower_append_newline (t u : Text) :
    lower (t ++ '\n' :: u) = lower t ++ '\n' :: lower u :=
  lower_append_cons_of_blank (by decide) (by decide) ⟨by decide, by decide⟩ t u

end Text

theorem HasNearWord.of_isContinuedBy {needle t t' : Text} {distance : Nat}
    (h : HasNearWord needle distance t) (hgrow : IsContinuedBy t t') :
    HasNearWord needle distance t' := by
  obtain ⟨w, hw, hedits⟩ := h
  exact ⟨w, mem_words_iff.1 (hgrow.mem_words (mem_words_iff.2 hw)), hedits⟩

/-! ## Attached code -/

/-- The item with more code: behind the code that it has on a new line, or all the code it has. -/
def Item.attach (item : Item) (code : Text) : Item :=
  item.withRawContent <| match item.rawContent with
    | some raw => raw ++ '\n' :: code
    | none => code

namespace Document

/-- Every field of the second document is the field of the first one, or goes on behind it. -/
def IsContinuedBy (d d' : Document) : Prop :=
  ∀ field, Text.IsContinuedBy (d.fieldText field) (d'.fieldText field)

variable (id : Nat) (item : Item) (code : Text)

theorem content_ofItem_attach : (ofItem id (item.attach code)).content =
    (ofItem id item).content ++ '\n' :: lower code := by
  cases hraw : item.rawContent with
  | none => simp [ofItem, Item.attach, Item.withRawContent, hraw, lower_append_newline]
  | some raw => simp [ofItem, Item.attach, Item.withRawContent, hraw, lower_append_newline]

theorem isContinuedBy_ofItem_attach :
    (ofItem id item).IsContinuedBy (ofItem id (item.attach code)) := by
  intro field
  cases field with
  | content => exact .inr ⟨_, content_ofItem_attach id item code⟩
  | title | path | tags | description | author => exact .inl rfl

end Document

/-! ## Queries without negations -/

/-- Is there a negation in the query? -/
def Query.hasNegation : Query → Bool
  | .term _ | .phrase _ | .wildcard _ | .fuzzy _ _ => false
  | .unary .not _ | .binary .not _ _ => true
  | .field _ inner | .group inner | .unary _ inner => inner.hasNegation
  | .binary _ left right => left.hasNegation || right.hasNegation

namespace Evaluator

open Evaluation

variable [PatternReader] (e : Evaluator Rat) {d d' : Document}

theorem isMatch_inField_of_isContinuedBy (h : d.IsContinuedBy d') {field : Field} {leaf : Query}
    (hmatch : (e.inField field leaf d).isMatch = true) :
    (e.inField field leaf d').isMatch = true := by
  cases leaf with
  | term value =>
    rw [isMatch_inField_term_iff] at hmatch ⊢
    exact ⟨hmatch.1, hmatch.2.trans (h field).isPrefix.isInfix⟩
  | phrase value =>
    rw [isMatch_inField_phrase_iff] at hmatch ⊢
    exact ⟨hmatch.1, hmatch.2.trans (h field).isPrefix.isInfix⟩
  | wildcard pattern =>
    rw [isMatch_inField_wildcard_iff, Compiled.isMatch] at hmatch ⊢
    split at hmatch
    · exact (h field).isMatch hmatch
    · cases hmatch
  | fuzzy _ _ | field _ _ | group _ | unary _ _ | binary _ _ _ => exact hmatch

variable (hweights : ∀ field, 0 ≤ e.config.weights.of field)
include hweights

theorem isMatch_gathered_of_isContinuedBy (h : d.IsContinuedBy d') {share : Rat}
    (hshare : 0 < share) {leaf : Query} {fields : List Field}
    (hmatch : (gathered share (fields.map fun field => e.inField field leaf d)).isMatch = true) :
    (gathered share (fields.map fun field => e.inField field leaf d')).isMatch = true := by
  obtain ⟨field, hfield, hinner, hweight⟩ := (e.isMatch_gathered_iff d hweights hshare _ _).1 hmatch
  exact (e.isMatch_gathered_iff d' hweights hshare _ _).2
    ⟨field, hfield, e.isMatch_inField_of_isContinuedBy h hinner, hweight⟩

/-- A query without negations matches every document that goes on behind one that it matches. -/
theorem isMatch_evaluate_of_isContinuedBy (h : d.IsContinuedBy d') {q : Query}
    (hq : q.hasNegation = false) (hmatch : (e.evaluate q d).isMatch = true) :
    (e.evaluate q d').isMatch = true := by
  induction q with
  | term value =>
    rw [evaluate, term_eq_gathered] at hmatch ⊢
    exact e.isMatch_gathered_of_isContinuedBy hweights h (by norm_num) hmatch
  | phrase value =>
    rw [evaluate, phrase_eq_gathered] at hmatch ⊢
    exact e.isMatch_gathered_of_isContinuedBy hweights h one_pos hmatch
  | wildcard pattern =>
    obtain ⟨field, hfield, hinner⟩ := (e.isMatch_wildcard_iff d pattern).1 hmatch
    exact (e.isMatch_wildcard_iff d' pattern).2
      ⟨field, hfield, e.isMatch_inField_of_isContinuedBy h hinner⟩
  | fuzzy term distance =>
    obtain ⟨field, hfield, hnear⟩ := (e.isMatch_fuzzy_iff d).1 hmatch
    exact (e.isMatch_fuzzy_iff d').2 ⟨field, hfield, hnear.of_isContinuedBy (h field)⟩
  | field name inner =>
    rw [evaluate] at hmatch ⊢
    split at hmatch
    · exact e.isMatch_inField_of_isContinuedBy h hmatch
    · cases hmatch
  | group inner ih => exact ih hq hmatch
  | unary op operand ih =>
    cases op with
    | not => cases hq
    | and | or => exact ih hq hmatch
  | binary op left right ihLeft ihRight =>
    cases op with
    | not => cases hq
    | and =>
      obtain ⟨hleft, hright⟩ := Bool.or_eq_false_iff.1 hq
      rw [isMatch_evaluate_and, Bool.and_eq_true] at hmatch ⊢
      exact ⟨ihLeft hleft hmatch.1, ihRight hright hmatch.2⟩
    | or =>
      obtain ⟨hleft, hright⟩ := Bool.or_eq_false_iff.1 hq
      rw [isMatch_evaluate_or, Bool.or_eq_true] at hmatch ⊢
      exact hmatch.imp (ihLeft hleft) (ihRight hright)

end Evaluator

/-- Where no weight is negative, attaching code to an item hides it from no query without negations:
if the query matches the document that the item becomes, it matches the document that the item with
the code becomes. -/
theorem isMatch_evaluate_attach [PatternReader] (e : Evaluator Rat)
    (hweights : ∀ field, 0 ≤ e.config.weights.of field) (id : Nat) (item : Item) (code : Text)
    {q : Query} (hq : q.hasNegation = false)
    (hmatch : (e.evaluate q (.ofItem id item)).isMatch = true) :
    (e.evaluate q (.ofItem id (item.attach code))).isMatch = true :=
  e.isMatch_evaluate_of_isContinuedBy hweights (Document.isContinuedBy_ofItem_attach id item code)
    hq hmatch

/-- The capital sigma at the end of the code stays at the end of its word, where a pattern, a phrase
and a fuzzy term find it. -/
theorem isMatch_evaluate_attach_sigma :
    let _ : PatternReader := .standard
    let e : Evaluator Rat := ⟨.standard, []⟩
    let item := (Item.named "letters".toList).withRawContent "ΑΣ".toList
    let q := (Query.field "content".toList (.wildcard "α?".toList)).and
      ((Query.phrase "ΑΣ".toList).and (.fuzzy "ας".toList 0)).group
    (∀ field, 0 ≤ e.config.weights.of field) ∧ q.hasNegation = false ∧
      (e.evaluate q (.ofItem 0 item)).isMatch = true ∧
      (Document.ofItem 0 (item.attach "Α".toList)).content = "\nας\nα".toList ∧
      (e.evaluate q (.ofItem 0 (item.attach "Α".toList))).isMatch = true := by
  intro _ e item q
  have hweights (field : Field) : 0 ≤ e.config.weights.of field := by
    cases field <;> decide +kernel
  have hq : q.hasNegation = false := by decide
  have hmatch : (e.evaluate q (.ofItem 0 item)).isMatch = true := by decide +kernel
  exact ⟨hweights, hq, hmatch, by decide,
    isMatch_evaluate_attach e hweights 0 item "Α".toList hq hmatch⟩

/-- The pattern matches a tag, and the content once there is code, which counts less. -/
example :
    let _ : PatternReader := .standard
    let e : Evaluator Rat := ⟨.standard, []⟩
    let item := (Item.named "demo".toList).withTags ["hooks".toList]
    let score (item : Item) := (e.evaluate (.wildcard "h*".toList) (.ofItem 0 item)).score
    score item = 2 ∧ score (item.attach "hooks()".toList) = 4 / 5 := by
  decide +kernel

end DocumentSearch
