import DocumentSearch.Proofs.Text.LowerCase
import DocumentSearch.Proofs.Text.WhiteSpace
import DocumentSearch.Search.Salvage

/-!
# Salvaged words

What is salvaged from a word is a part of it in lower case. So it has no white space in it, and
putting it in lower case again changes nothing.

Results:

* `salvaged_of_mem_salvageTerms`: what is known of every salvaged word.
-/

namespace DocumentSearch

open Text

/-- What is known of a salvaged word. -/
structure Salvaged (word : Text) : Prop where
  ne_nil : word ≠ []
  blank_notMem : ' ' ∉ word
  lower_eq : lower word = word

theorem mem_of_mem_dropScope {word : Text} {c : Char} (h : c ∈ dropScope word) : c ∈ word := by
  unfold dropScope at h
  split at h
  · next name value hsplit =>
    split at h
    · rw [(splitOnce_eq_some_iff.1 hsplit).1]
      exact List.mem_append_right _ (List.mem_cons_of_mem _ h)
    · exact h
  · exact h

theorem mem_of_mem_dropDistance {word : Text} {c : Char} (h : c ∈ dropDistance word) :
    c ∈ word := by
  unfold dropDistance at h
  split at h
  · next term digits hsplit =>
    split at h
    · rw [(splitLast_eq_some_iff.1 hsplit).1]
      exact List.mem_append_left _ h
    · exact h
  · exact h

theorem firstOccurrences_subset (ts : List Text) : ∀ t ∈ firstOccurrences ts, t ∈ ts := by
  refine List.foldlRecOn ts _ (motive := fun kept => ∀ t ∈ kept, t ∈ ts) ?_ ?_
  · intro t h
    cases h
  · intro kept hkept u hu t h
    split at h
    · exact hkept t h
    · rcases List.mem_append.1 h with h | h
      · exact hkept t h
      · cases List.mem_singleton.1 h
        exact hu

theorem salvaged_of_mem_salvageTerms {t word : Text} (h : word ∈ salvageTerms t) :
    Salvaged word := by
  obtain ⟨hword, hne⟩ := List.mem_filter.1 (firstOccurrences_subset _ word h)
  obtain ⟨source, hsource, rfl⟩ := List.mem_map.1 hword
  refine ⟨by simpa using hne, ?_, lower_lower _⟩
  intro hblank
  have hmem := mem_of_mem_dropScope (mem_of_mem_dropDistance (blank_mem_of_mem_lower hblank))
  have hwhite := isWhiteSpace_of_mem_words (List.mem_filter.1 hsource).1 (List.mem_filter.1 hmem).1
  exact absurd hwhite (by decide)

end DocumentSearch
