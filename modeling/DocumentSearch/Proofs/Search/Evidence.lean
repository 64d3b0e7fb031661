import DocumentSearch.Proofs.Search.Score
import DocumentSearch.Proofs.Search.Evaluation

/-!
# Where highlights come from

An outcome can carry highlights although the query does not match: a conjunction keeps those of the
operand that matches, and a term shows its occurrences also where they count nothing. None of them
is left when the query as a whole matches. What is shown then is put together from the highlights of
leaves that match on their own and that no negation stands above.

Results:

* `Evaluator.isShown_of_mem_highlights`: what every highlight is like.
* `Evaluator.exists_isEvidence`: the highlights of a match are those of leaves that match.
* `highlights_evidence`: both taken together.
-/

namespace DocumentSearch

open Text

/-- The terms and phrases of the query that no negation stands above, from left to right. One that
is scoped to a field stands with its field. -/
def Query.evidence : Query → List Query
  | .term value => [.term value]
  | .phrase text => [.phrase text]
  | .field name (.term value) => [.field name (.term value)]
  | .field name (.phrase text) => [.field name (.phrase text)]
  | .wildcard _ | .fuzzy _ _ | .field _ _ => []
  | .group inner => inner.evidence
  | .unary .not _ | .binary .not _ _ => []
  | .unary _ operand => operand.evidence
  | .binary _ left right => left.evidence ++ right.evidence

/-- The highlight is one of a field that is highlighted, and there is something to show. -/
structure Highlight.IsShown (h : Highlight) : Prop where
  field_ne_tags : h.field ≠ .tags
  fragments_ne_nil : h.fragments ≠ []

namespace Evaluator

variable {α : Type} {e : Evaluator α} {q : Query} {d : Document}

/-! ## Every highlight -/

variable [PatternReader]

theorem isShown_of_mem_highlight? {field : Field} {text needle : Text} {h : Highlight}
    (hmem : h ∈ (e.highlight? field text needle).toList) : h.IsShown := by
  rw [Option.mem_toList, highlight?] at hmem
  split at hmem
  · cases hmem
  · next htags =>
    unfold HighlightStyle.highlight? at hmem
    split at hmem
    · cases hmem
    · next fragments hne =>
      cases hmem
      exact ⟨htags, hne⟩

theorem isShown_of_mem_append {highlights : List Highlight} {field : Field} {text needle : Text}
    (hall : ∀ h ∈ highlights, h.IsShown) :
    ∀ h ∈ highlights ++ (e.highlight? field text needle).toList, h.IsShown :=
  List.forall_mem_append.2 ⟨hall, fun _ => isShown_of_mem_highlight?⟩

variable [Score α] (e)

theorem isShown_of_mem_term (value : Text) :
    ∀ h ∈ (e.term value d).highlights, h.IsShown :=
  e.term_induction (motive := fun _ highlights => ∀ h ∈ highlights, h.IsShown)
    (List.forall_mem_nil _) fun _ _ _ _ => isShown_of_mem_append

theorem isShown_of_mem_phrase (value : Text) :
    ∀ h ∈ (e.phrase value d).highlights, h.IsShown :=
  e.phrase_induction (motive := fun _ highlights => ∀ h ∈ highlights, h.IsShown)
    (List.forall_mem_nil _) fun _ _ _ => isShown_of_mem_append

theorem highlights_wildcard (pattern : Text) : (e.wildcard pattern d).highlights = [] := by
  unfold wildcard
  split <;> rfl

omit [PatternReader] in
theorem highlights_fuzzy (word : Text) (distance : Nat) :
    (e.fuzzy word distance d).highlights = [] := by
  unfold fuzzy
  dsimp only
  split <;> rfl

theorem isShown_of_mem_inField (field : Field) (leaf : Query) :
    ∀ h ∈ (e.inField field leaf d).highlights, h.IsShown := by
  unfold inField
  cases leaf <;> dsimp only
  case term value =>
    split
    · exact List.forall_mem_nil _
    · exact fun _ => isShown_of_mem_highlight?
  case phrase text =>
    split
    · exact List.forall_mem_nil _
    · exact fun _ => isShown_of_mem_highlight?
  case wildcard pattern =>
    split <;> exact List.forall_mem_nil _
  all_goals exact List.forall_mem_nil _

/-- What is scoped to a field is a leaf of the evidence, or it shows nothing. -/
theorem evidence_eq_or_highlights_eq_nil (name : Text) (inner : Query) :
    (Query.field name inner).evidence = [.field name inner] ∨
      (e.evaluate (.field name inner) d).highlights = [] := by
  cases inner with
  | term value | phrase text => exact .inl rfl
  | wildcard pattern =>
    refine .inr ?_
    rw [evaluate]
    split
    · rw [inField]
      split <;> rfl
    · rfl
  | fuzzy _ _ | field _ _ | group _ | unary _ _ | binary _ _ _ =>
    refine .inr ?_
    rw [evaluate]
    split <;> rfl

theorem isShown_of_mem_highlights (q : Query) :
    ∀ h ∈ (e.evaluate q d).highlights, h.IsShown := by
  induction q with
  | term value => exact e.isShown_of_mem_term value
  | phrase text => exact e.isShown_of_mem_phrase text
  | wildcard pattern => simp [evaluate, highlights_wildcard]
  | fuzzy word distance => simp [evaluate, highlights_fuzzy]
  | field name inner =>
    rw [evaluate]
    split
    · exact e.isShown_of_mem_inField _ inner
    · exact List.forall_mem_nil _
  | group inner ih => exact ih
  | unary op operand ih =>
    cases op with
    | not => exact List.forall_mem_nil _
    | and | or => exact ih
  | binary op left right ihLeft ihRight =>
    cases op with
    | not => exact List.forall_mem_nil _
    | and => exact List.forall_mem_append.2 ⟨ihLeft, ihRight⟩
    | or =>
      rw [evaluate, either]
      dsimp only
      split
      · exact ihLeft
      · exact ihRight

/-! ## The highlights of a match -/

/-- The leaves match, belong to the evidence of the query in this order, and show the highlights. -/
structure IsEvidence (q : Query) (d : Document) (highlights : List Highlight)
    (leaves : List Query) : Prop where
  sublist : leaves.Sublist q.evidence
  isMatch : ∀ leaf ∈ leaves, (e.evaluate leaf d).isMatch = true
  highlights_eq : highlights = leaves.flatMap fun leaf => (e.evaluate leaf d).highlights

variable {e} in
theorem IsEvidence.nil : e.IsEvidence q d [] [] :=
  ⟨List.nil_sublist _, by simp, rfl⟩

variable {e} in
theorem IsEvidence.self (hself : q.evidence = [q]) (hmatch : (e.evaluate q d).isMatch = true) :
    e.IsEvidence q d (e.evaluate q d).highlights [q] :=
  ⟨hself ▸ List.Sublist.refl _, by simpa using hmatch, by simp⟩

theorem exists_isEvidence (hmatch : (e.evaluate q d).isMatch = true) :
    ∃ leaves, e.IsEvidence q d (e.evaluate q d).highlights leaves := by
  induction q with
  | term value | phrase text => exact ⟨_, .self rfl hmatch⟩
  | wildcard pattern =>
    refine ⟨[], ?_⟩
    rw [evaluate, highlights_wildcard]
    exact .nil
  | fuzzy word distance =>
    refine ⟨[], ?_⟩
    rw [evaluate, highlights_fuzzy]
    exact .nil
  | field name inner =>
    rcases e.evidence_eq_or_highlights_eq_nil (d := d) name inner with hself | hnil
    · exact ⟨_, .self hself hmatch⟩
    · rw [hnil]
      exact ⟨[], .nil⟩
  | group inner ih =>
    obtain ⟨leaves, h⟩ := ih hmatch
    exact ⟨leaves, h.sublist, h.isMatch, h.highlights_eq⟩
  | unary op operand ih =>
    cases op with
    | not => exact ⟨[], .nil⟩
    | and | or =>
      obtain ⟨leaves, h⟩ := ih hmatch
      exact ⟨leaves, h.sublist, h.isMatch, h.highlights_eq⟩
  | binary op left right ihLeft ihRight =>
    cases op with
    | not => exact ⟨[], .nil⟩
    | and =>
      obtain ⟨hleft, hright⟩ := Bool.and_eq_true_iff.1 hmatch
      obtain ⟨leaves, h⟩ := ihLeft hleft
      obtain ⟨leaves', h'⟩ := ihRight hright
      refine ⟨leaves ++ leaves', h.sublist.append h'.sublist,
        List.forall_mem_append.2 ⟨h.isMatch, h'.isMatch⟩, ?_⟩
      rw [List.flatMap_append, ← h.highlights_eq, ← h'.highlights_eq]
      rfl
    | or =>
      by_cases hleft : (e.evaluate left d).isMatch = true
      · obtain ⟨leaves, h⟩ := ihLeft hleft
        refine ⟨leaves, h.sublist.trans (List.sublist_append_left _ _), h.isMatch, ?_⟩
        rw [← h.highlights_eq]
        exact if_pos hleft
      · have hright : (e.evaluate right d).isMatch = true :=
          (Bool.or_eq_true_iff.1 hmatch).resolve_left hleft
        obtain ⟨leaves, h⟩ := ihRight hright
        refine ⟨leaves, h.sublist.trans (List.sublist_append_right _ _), h.isMatch, ?_⟩
        rw [← h.highlights_eq]
        exact if_neg hleft

end Evaluator

variable {α : Type} [Score α]

/-- Every highlight of a match stands in a field other than the tags, has a fragment to show, and is
a highlight of a term or phrase of the query that matches on its own and that no negation stands
above. What does not match contributes nothing: the highlights are those of some of these leaves,
all of which match, one leaf after the other. -/
theorem highlights_evidence [PatternReader] (e : Evaluator α) {q : Query} {d : Document}
    (hmatch : (e.evaluate q d).isMatch = true) :
    (∀ h ∈ (e.evaluate q d).highlights, h.field ≠ .tags ∧ h.fragments ≠ [] ∧
      ∃ leaf ∈ q.evidence, (e.evaluate leaf d).isMatch = true ∧
        h ∈ (e.evaluate leaf d).highlights) ∧
    ∃ leaves : List Query, leaves.Sublist q.evidence ∧
      (∀ leaf ∈ leaves, (e.evaluate leaf d).isMatch = true) ∧
      (e.evaluate q d).highlights = leaves.flatMap fun leaf => (e.evaluate leaf d).highlights := by
  obtain ⟨leaves, hleaves⟩ := e.exists_isEvidence hmatch
  refine ⟨fun h hmem => ?_, leaves, hleaves.sublist, hleaves.isMatch, hleaves.highlights_eq⟩
  obtain ⟨htags, hfragments⟩ := e.isShown_of_mem_highlights q h hmem
  rw [hleaves.highlights_eq, List.mem_flatMap] at hmem
  obtain ⟨leaf, hleaf, hshown⟩ := hmem
  exact ⟨htags, hfragments, leaf, hleaves.sublist.subset hleaf, hleaves.isMatch leaf hleaf, hshown⟩

/-- The conjunction does not match but keeps a highlight, which the disjunction leaves out. -/
theorem highlights_evidence_hooks_guide :
    let _ : PatternReader := .standard
    let e : Evaluator Rat := ⟨.standard, []⟩
    let d := Document.ofItem 0 (.named "hooks guide".toList)
    let both := (Query.term "hooks".toList).and (.term "vue".toList)
    let q := both.or (.field "Title".toList (.phrase "guide".toList))
    (e.evaluate both d).isMatch = false ∧ (e.evaluate both d).highlights.length = 2 ∧
      (e.evaluate q d).isMatch = true ∧ (e.evaluate q d).highlights.length = 1 ∧
      ∀ h ∈ (e.evaluate q d).highlights, ∃ leaf ∈ q.evidence,
        (e.evaluate leaf d).isMatch = true ∧ h ∈ (e.evaluate leaf d).highlights := by
  intro _ e d both q
  have hmatch : (e.evaluate q d).isMatch = true := by decide +kernel
  refine ⟨by decide +kernel, by decide +kernel, hmatch, by decide +kernel, ?_⟩
  intro h hmem
  exact ((highlights_evidence e hmatch).1 h hmem).2.2

end DocumentSearch
