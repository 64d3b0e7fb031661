import DocumentSearch.Proofs.Query.Word
import DocumentSearch.Proofs.Search.BooleanAlgebra
import DocumentSearch.Proofs.Search.Double
import DocumentSearch.Proofs.Text.Occurrence
import DocumentSearch.Proofs.Text.Wildcard

/-!
# Searching for a word

A word finds the documents in which its lower case occurs, and a word before a star those in which
the word occurs up to case. Both compare with text in lower case, and both miss a word that the
lower case of a whole text treats in another way than the word alone: a sigma that ends the word but
not the text around it, and a capital `İ`, which is no character of a text in lower case.

Results:

* `matches_term_iff`: what a term matches, with the weights by default.
* `matches_append_star_iff`: what a word before a star matches, if it is not refused.
* `exists_result_of_piece_of_title`: a piece of a title finds the document, with a positive score.
* `foundIds_subset_append_star`: a word before a star finds what the words find that begin with it.
-/

namespace DocumentSearch

open Text

variable {α : Type} [Score α]

theorem Field.mem_all (f : Field) : f ∈ Field.all := by cases f <;> decide

/-! ## Terms -/

section Matches

variable [PatternReader] {config : Config α} {value : Text} {d : Document}

theorem exists_occursIn_of_matches_term [PointScore α] (hne : value ≠ [])
    (h : Matches config (.term value) d) :
    ∃ field, occursIn (lower value) (d.fieldText field) = true := by
  by_contra hnone
  simp only [not_exists, Bool.not_eq_true, ← occurrences_eq_zero_iff (lower_ne_nil hne)] at hnone
  have hscore : ((⟨config, []⟩ : Evaluator α).term value d).score = 0.0 := by
    rw [Evaluator.score_term]
    simp only [hnone, if_true]
    exact List.foldl_fixed ..
  rw [Matches, Evaluator.evaluate, Evaluator.isMatch_term, hscore, PointScore.isPositive_zero] at h
  cases h

/-- With the weights by default, a term matches the documents that it occurs in. -/
theorem matches_term_iff [CountScore α] (hne : value ≠ []) :
    Matches (.standard : Config α) (.term value) d ↔
      ∃ field, occursIn (lower value) (d.fieldText field) = true := by
  refine ⟨exists_occursIn_of_matches_term hne, ?_⟩
  rintro ⟨field, h⟩
  have hcount : occurrences (lower value) (d.fieldText field) ≠ 0 := by
    rw [Ne, occurrences_eq_zero_iff (lower_ne_nil hne), h]
    simp
  rw [Matches, Evaluator.evaluate, Evaluator.isMatch_term, Evaluator.score_term,
    IsPoints.zero.isPositive_foldl_ite ?_, Bool.or_eq_true, List.any_eq_true]
  · exact .inr ⟨field, field.mem_all, by simpa using hcount⟩
  · intro field hne
    obtain ⟨n, hn⟩ := Nat.exists_eq_succ_of_ne_zero hne
    rw [hn]
    exact CountScore.isPositive_mul_weight _ field (CountScore.isPositive_ofCount n)

/-- A word before a star matches the documents that it occurs in up to case. -/
theorem matches_append_star_iff (h : isWildcard value = false)
    (hread : PatternReader.read? (value ++ ['*']) = some (.compile (value ++ ['*']))) :
    Matches config (.wildcard (value ++ ['*'])) d ↔
      ∃ field, value.map foldChar <:+: (d.fieldText field).map foldChar := by
  have hpattern (text : Text) : Compiled.isMatch [] (value ++ ['*']) text =
      (Wildcard.compile (value ++ ['*'])).isMatch text := by
    rw [Compiled.isMatch, Compiled.pattern?, List.lookup_nil, hread]
  rw [Matches, Evaluator.evaluate, Evaluator.wildcard_eq_firstField,
    Evaluator.isMatch_firstField_iff]
  simp only [hpattern, isMatch_compile_append_star_iff h, Field.mem_all, true_and]

end Matches

theorem isLower_of_mem_fieldText {id : Nat} {item : Item} {field : Field} {c : Char}
    (h : c ∈ (Document.ofItem id item).fieldText field) : IsLower c := by
  cases field <;> exact (of_mem_lowerAfter h).1

/-- No text in lower case has a capital `İ`, or any other character that is the same up to case. -/
theorem not_matches_append_star_of_mem [PatternReader] {config : Config α} {value : Text} {id : Nat}
    {item : Item} (h : isWildcard value = false) (hdotted : 'İ' ∈ value)
    (hread : PatternReader.read? (value ++ ['*']) = some (.compile (value ++ ['*']))) :
    ¬ Matches config (.wildcard (value ++ ['*'])) (Document.ofItem id item) := by
  rw [matches_append_star_iff h hread]
  rintro ⟨field, hinfix⟩
  have hmem : 'İ' ∈ ((Document.ofItem id item).fieldText field).map foldChar := by
    refine hinfix.subset (List.mem_map.2 ⟨'İ', hdotted, ?_⟩)
    exact (foldChar_eq_iff (by simp)).2 rfl
  obtain ⟨c, hc, hfold⟩ := List.mem_map.1 hmem
  cases (foldChar_eq_iff (by simp)).1 hfold
  exact absurd (isLower_of_mem_fieldText hc).lowerChar_eq (by decide)

/-! ## Words in titles -/

/-- A word that stands in a title finds the document, with a positive score, if its sigmas have the
lower case that they have where the word stands alone. -/
theorem exists_result_of_piece_of_title [CountScore α] [PatternReader] (items : List Item)
    {limit : Nat} (hlimit : items.length ≤ limit) {id : Nat} {item : Item}
    (hitem : items[id]? = some item) {before word behind : Text}
    (htitle : (Document.ofItem id item).title = before ++ word ++ behind) (hword : IsWord word)
    (hkey : isKeyword word = false) (hsigmas : KeepsSigmas before word behind) :
    ∃ r ∈ (Index.build (.standard : Config α) items).searchWithLimit word limit,
      r.IsOf (Document.ofItem id item) ∧ Score.isPositive r.score = true := by
  have hmatch : Matches (.standard : Config α) (.term word) (Document.ofItem id item) := by
    refine (matches_term_iff hword.ne_nil).2 ⟨.title, occursIn_iff.2 ?_⟩
    rw [Document.fieldText, htitle]
    exact lower_infix_lower hsigmas
  rw [searchWithLimit_of_ofText_eq_ok _ (hword.ofText_eq hkey)]
  refine ⟨outcomeOf .standard (.term word) (Document.ofItem id item), (mem_rank_iff hlimit).2 ?_,
    Result.isOf_ofDocument .., hmatch⟩
  exact ⟨_, mem_documentsOf_iff.2 ⟨item, hitem, rfl⟩, hmatch, (shows_iff _ _ _).2 rfl⟩

/-- The last sigma of the word ends a word in the title, too. -/
theorem exists_result_of_last_letters :
    let _ : PatternReader := .standard
    let items : List Item := [.named "ΟΔΥΣΣΕΑΣ".toList]
    ∃ r ∈ (Index.build (.standard : Config Float) items).searchWithLimit "ΣΕΑΣ".toList 1,
      r.IsOf (Document.ofItem 0 (.named "ΟΔΥΣΣΕΑΣ".toList)) ∧
        Score.isPositive r.score = true := by
  intro _
  have htitle : (Document.ofItem 0 (.named "ΟΔΥΣΣΕΑΣ".toList)).title =
      "ΟΔΥΣ".toList ++ "ΣΕΑΣ".toList ++ [] := by decide
  exact exists_result_of_piece_of_title [.named "ΟΔΥΣΣΕΑΣ".toList] (Nat.le_refl 1) rfl htitle
    (by decide) (by decide) (by decide)

/-- The sigma at the end of the word stands within a word in the title. -/
theorem foundIds_cut_off_sigma :
    let _ : PatternReader := .standard
    let item : Item := .named "ΟΔΥΣΣΕΑΣ".toList
    (Document.ofItem 0 item).title = [] ++ "ΟΔΥΣ".toList ++ "ΣΕΑΣ".toList ∧
      IsWord "ΟΔΥΣ".toList ∧ isKeyword "ΟΔΥΣ".toList = false ∧
      0 ∉ foundIds
        ((Index.build (.standard : Config Float) [item]).searchWithLimit "ΟΔΥΣ".toList 1) := by
  have hword : IsWord "ΟΔΥΣ".toList := by decide
  have hkey : isKeyword "ΟΔΥΣ".toList = false := by decide
  intro _
  refine ⟨by decide, hword, hkey, ?_⟩
  rw [mem_foundIds_iff _ _ (Nat.le_refl 1) (hword.ofText_eq hkey)]
  rintro ⟨item, hitem, hmatch⟩
  cases hitem
  obtain ⟨field, hoccurs⟩ := exists_occursIn_of_matches_term hword.ne_nil hmatch
  revert hoccurs
  cases field <;> decide

/-! ## Words before a star -/

/-- A word before a star finds what is found by the words that begin with it, if the pattern is not
refused. That fails for a word with a capital `İ`, which finds nothing before a star. -/
theorem foundIds_subset_append_star [PointScore α] [PatternReader] (config : Config α)
    (items : List Item) {limit limit' : Nat} (hlimit : items.length ≤ limit)
    (hlimit' : items.length ≤ limit') {u v : Text} (hu : u ≠ []) (hword : IsWord (u ++ v))
    (hkey : isKeyword (u ++ v) = false)
    (hread : PatternReader.read? (u ++ ['*']) = some (.compile (u ++ ['*']))) :
    let index := Index.build config items
    ('İ' ∉ u → foundIds (index.searchWithLimit (u ++ v) limit) ⊆
      foundIds (index.searchWithLimit (u ++ ['*']) limit')) ∧
    ('İ' ∈ u → foundIds (index.searchWithLimit (u ++ ['*']) limit') = ∅) := by
  have hbegin : IsWord u := ⟨hu, fun c hc => hword.isAlphanumeric c (List.mem_append_left v hc)⟩
  have hterm := mem_foundIds_iff config items hlimit (hword.ofText_eq hkey)
  have hstar := mem_foundIds_iff config items hlimit' hbegin.ofText_append_star
  constructor
  · intro hdotted id hid
    obtain ⟨item, hitem, hmatch⟩ := (hterm id).1 hid
    obtain ⟨field, hoccurs⟩ := exists_occursIn_of_matches_term hword.ne_nil hmatch
    have hinfix : lowerBetween false v u <:+: (Document.ofItem id item).fieldText field := by
      have h := occursIn_iff.1 hoccurs
      rw [lower, lowerAfter_append] at h
      exact (List.prefix_append _ _).isInfix.trans h
    refine (hstar id).2 ⟨item, hitem, ?_⟩
    rw [matches_append_star_iff hbegin.isWildcard_eq_false hread]
    refine ⟨field, ?_⟩
    rw [← map_foldChar_lowerBetween hdotted false v]
    exact hinfix.map foldChar
  · intro hdotted
    rw [Set.eq_empty_iff_forall_notMem]
    intro id hid
    obtain ⟨item, -, hmatch⟩ := (hstar id).1 hid
    exact not_matches_append_star_of_mem hbegin.isWildcard_eq_false hdotted hread hmatch

/-- The case of the letters before the star does not matter. -/
theorem foundIds_subset_append_star_react :
    let _ : PatternReader := .standard
    let index := Index.build (.standard : Config Float) [.named "react hooks".toList]
    foundIds (index.searchWithLimit "REact".toList 1) ⊆
      foundIds (index.searchWithLimit "RE*".toList 1) := by
  intro _
  exact (foundIds_subset_append_star .standard [.named "react hooks".toList] (Nat.le_refl 1)
    (Nat.le_refl 1) (u := "RE".toList) (v := "act".toList) (by decide) (by decide)
    (by decide) rfl).1 (by decide)

/-- A name is found by its own text, but not by its first letter and a star. -/
theorem foundIds_dotted_capital :
    let _ : PatternReader := .standard
    let index := Index.build (.standard : Config Float) [.named "İstanbul".toList]
    (∀ field, Score.isPositive (index.config.weights.of field) = true) ∧
      IsWord "İstanbul".toList ∧ isKeyword "İstanbul".toList = false ∧
      0 ∈ foundIds (index.searchWithLimit "İstanbul".toList 1) ∧
      0 ∉ foundIds (index.searchWithLimit "İ*".toList 1) := by
  have hword : IsWord "İstanbul".toList := by decide
  have hkey : isKeyword "İstanbul".toList = false := by decide
  have hletter : IsWord ['İ'] := by decide
  have hwildcard := hletter.isWildcard_eq_false
  have hpattern : Query.ofText "İ*".toList = .ok (.wildcard "İ*".toList) :=
    hletter.ofText_append_star
  intro _
  have hfound {t : Text} {q : Query} (h : Query.ofText t = .ok q) :=
    mem_foundIds_iff (.standard : Config Float) [.named "İstanbul".toList] (Nat.le_refl 1) h 0
  refine ⟨?_, hword, hkey, ?_, ?_⟩
  · intro field
    cases field <;> decide +kernel
  · have hoccurs : occursIn (lower "İstanbul".toList)
        ((Document.ofItem 0 (.named "İstanbul".toList)).fieldText .title) = true := by decide
    exact (hfound (hword.ofText_eq hkey)).2
      ⟨_, rfl, (matches_term_iff hword.ne_nil).2 ⟨.title, hoccurs⟩⟩
  · rw [hfound hpattern]
    rintro ⟨item, -, hmatch⟩
    exact not_matches_append_star_of_mem hwildcard (by decide) rfl hmatch

end DocumentSearch
