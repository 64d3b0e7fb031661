import DocumentSearch.History
import DocumentSearch.Proofs.Text.WhiteSpace

/-!
# Laws of the search history

A history can be thought of as the list of all queries that were ever recorded, latest first, with
its repetitions dropped and cut off at the capacity. A recorded query is taken up by a history that
was cut off before, so this is a law of the whole run: what was cut off never comes back, because
only one query can move to the front at a time.

Results:

* `History.foldr_record`: what is left of recorded queries.
* `History.WellFormed.step`: what every step keeps.
* `History.entries_of_run`: the history after any run.
-/

namespace DocumentSearch.History

open Text

/-! ## Runs -/

/-- What is done with a history. -/
inductive Step where
  /-- A query is run. -/
  | record (query : Text)
  /-- The queries are forgotten. -/
  | clear
  /-- The history is replaced by the one that a value stands for, if it stands for one. -/
  | restore (d : Data)
  /-- The history is written as a value and read again. -/
  | roundTrip

/-- The history after a step. -/
def step (h : History) : Step → History
  | .record query => h.record query
  | .clear => h.clear
  | .restore d => (ofData? d).getD h
  | .roundTrip => (ofData? h.toData).getD h

/-- The history after all the steps. -/
def run (h : History) (steps : List Step) : History := steps.foldl step h

/-- The queries of a list as a history keeps them: trimmed, without blank ones, and of equal ones
the first. -/
def distinctQueries (queries : List Text) : List Text :=
  ((queries.map trim).filter (!·.isEmpty)).eraseDups

/-! ## Repetitions -/

section Repetitions

variable {α : Type} [BEq α] [LawfulBEq α]

theorem eraseDups_filter (p : α → Bool) : ∀ l : List α,
    (l.filter p).eraseDups = l.eraseDups.filter p
  | [] => rfl
  | a :: l => by
    have hrest := eraseDups_filter p (l.filter fun b => !b == a)
    rw [List.filter_filter] at hrest
    rw [List.eraseDups_cons]
    by_cases ha : p a = true
    · rw [List.filter_cons_of_pos ha, List.filter_cons_of_pos ha, List.eraseDups_cons,
        List.filter_filter, ← hrest]
      simp only [Bool.and_comm]
    · rw [List.filter_cons_of_neg ha, List.filter_cons_of_neg ha, ← hrest]
      congr 1
      refine List.filter_congr fun b _ => ?_
      by_cases hb : b = a
      · subst hb
        simpa using ha
      · simp [hb]
termination_by l => l.length
decreasing_by exact Nat.lt_succ_of_le (List.length_filter_le _ _)

theorem eraseDups_cons_eq (a : α) (l : List α) :
    (a :: l).eraseDups = a :: l.eraseDups.filter (· != a) := by
  rw [List.eraseDups_cons, ← eraseDups_filter]
  rfl

theorem nodup_eraseDups : ∀ l : List α, l.eraseDups.Nodup
  | [] => List.nodup_nil
  | a :: l => by
    rw [eraseDups_cons_eq, List.nodup_cons]
    exact ⟨by simp, (nodup_eraseDups l).filter _⟩

/-- If an element moves to the front of a list without repetitions, then the beginning of the new
list rests on the beginning of the old one only. -/
theorem take_cons_filter_take {l : List α} (h : l.Nodup) (a : α) (k : Nat) :
    (a :: (l.take k).filter (· != a)).take k = (a :: l.filter (· != a)).take k := by
  cases k with
  | zero => rfl
  | succ k =>
    rw [List.take_succ_cons, List.take_succ_cons, List.cons.injEq]
    refine ⟨rfl, ?_⟩
    induction l generalizing k with
    | nil => rfl
    | cons b l ih =>
      obtain ⟨hb, hl⟩ := List.nodup_cons.1 h
      rw [List.take_succ_cons]
      by_cases hba : b = a
      · subst hba
        have hkeep {s : List α} (hs : s ⊆ l) : s.filter (· != b) = s :=
          List.filter_eq_self.2 fun c hc => bne_iff_ne.2 fun hcb => hb (hcb ▸ hs hc)
        simp [hkeep (List.take_subset k l), hkeep (List.Subset.refl l), List.take_take]
      · have hne : (b != a) = true := bne_iff_ne.2 hba
        rw [List.filter_cons_of_pos (p := (· != a)) hne,
          List.filter_cons_of_pos (p := (· != a)) hne]
        cases k with
        | zero => rfl
        | succ k => rw [List.take_succ_cons, List.take_succ_cons, ih hl]

end Repetitions

/-! ## Recorded queries -/

theorem distinctQueries_cons (query : Text) (queries : List Text) :
    distinctQueries (query :: queries) =
      if (trim query).isEmpty then distinctQueries queries
      else trim query :: (distinctQueries queries).filter (· != trim query) := by
  unfold distinctQueries
  rw [List.map_cons]
  split
  · next hblank => rw [List.filter_cons_of_neg (by simpa using hblank)]
  · next hquery => rw [List.filter_cons_of_pos (by simpa using hquery), eraseDups_cons_eq]

theorem nodup_distinctQueries (queries : List Text) : (distinctQueries queries).Nodup :=
  nodup_eraseDups _

theorem withCapacity_eq (capacity : Nat) :
    withCapacity capacity = ⟨capacity, (distinctQueries []).take capacity⟩ := by
  rw [show distinctQueries [] = [] from rfl, List.take_nil]
  rfl

theorem trim_eq_self_of_mem_distinctQueries {query : Text} {queries : List Text}
    (h : query ∈ distinctQueries queries) : trim query = query ∧ query ≠ [] := by
  obtain ⟨hmem, hne⟩ := List.mem_filter.1 (List.mem_eraseDups.1 h)
  obtain ⟨source, -, rfl⟩ := List.mem_map.1 hmem
  exact ⟨trim_trim source, by simpa using hne⟩

/-- A list that has been gone through keeps its queries. -/
theorem distinctQueries_eq_self {queries : List Text} (hnodup : queries.Nodup)
    (htrimmed : ∀ query ∈ queries, trim query = query ∧ query ≠ []) :
    distinctQueries queries = queries := by
  induction queries with
  | nil => rfl
  | cons query queries ih =>
    obtain ⟨hquery, hqueries⟩ := List.forall_mem_cons.1 htrimmed
    obtain ⟨hmem, hnodup⟩ := List.nodup_cons.1 hnodup
    rw [distinctQueries_cons, hquery.1, ih hnodup hqueries, if_neg (by simpa using hquery.2),
      List.filter_eq_self.2]
    intro other hother
    exact bne_iff_ne.2 fun heq => hmem (heq ▸ hother)

/-- Cutting the queries off before the next one is recorded changes nothing. -/
theorem record_eq (capacity : Nat) (query : Text) (queries : List Text) :
    record ⟨capacity, (distinctQueries queries).take capacity⟩ query =
      ⟨capacity, (distinctQueries (query :: queries)).take capacity⟩ := by
  rw [record, distinctQueries_cons]
  dsimp only
  split
  · rfl
  · rw [take_cons_filter_take (nodup_distinctQueries queries)]

/-- Queries recorded from the last to the first on, into a history without any. -/
theorem foldr_record (capacity : Nat) (queries : List Text) :
    queries.foldr (fun query h => h.record query) (withCapacity capacity) =
      ⟨capacity, (distinctQueries queries).take capacity⟩ := by
  induction queries with
  | nil => exact (withCapacity_eq capacity)
  | cons query queries ih => rw [List.foldr_cons, ih, record_eq]

theorem ofEntries_eq (entries : List Text) :
    ofEntries entries = ⟨20, (distinctQueries entries).take 20⟩ :=
  foldr_record 20 entries

theorem ofData?_texts (entries : List Text) :
    ofData? (.list (entries.map .text)) = some (ofEntries entries) := by
  have htexts : Data.texts? (.list (entries.map .text)) = some entries := by
    rw [Data.texts?, List.mapM_map]
    exact (List.mapM_pure (m := Option) (f := id)).trans (by simp)
  rw [ofData?, htexts]
  rfl

/-! ## Every state -/

/-- The queries of a history are different from each other, trimmed, not blank, and not more than it
is made for. -/
structure WellFormed (h : History) : Prop where
  nodup : h.entries.Nodup
  trimmed : ∀ query ∈ h.entries, trim query = query ∧ query ≠ []
  length_le : h.entries.length ≤ h.capacity

theorem wellFormed_distinctQueries (capacity : Nat) (queries : List Text) :
    WellFormed ⟨capacity, (distinctQueries queries).take capacity⟩ where
  nodup := (nodup_distinctQueries queries).sublist (List.take_sublist _ _)
  trimmed _ h := trim_eq_self_of_mem_distinctQueries (List.mem_of_mem_take h)
  length_le := List.length_take_le _ _

theorem wellFormed_withCapacity (capacity : Nat) : (withCapacity capacity).WellFormed := by
  rw [withCapacity_eq]
  exact wellFormed_distinctQueries capacity []

theorem WellFormed.eq_distinctQueries {h : History} (hw : h.WellFormed) :
    h = ⟨h.capacity, (distinctQueries h.entries).take h.capacity⟩ := by
  rw [distinctQueries_eq_self hw.nodup hw.trimmed, List.take_of_length_le hw.length_le]

theorem wellFormed_ofEntries (entries : List Text) : (ofEntries entries).WellFormed := by
  rw [ofEntries_eq]
  exact wellFormed_distinctQueries 20 entries

theorem wellFormed_of_ofData? {h : History} {d : Data} (hread : ofData? d = some h) :
    h.WellFormed := by
  obtain ⟨entries, -, rfl⟩ := Option.map_eq_some_iff.1 hread
  exact wellFormed_ofEntries entries

/-- A step from a well-formed history leads to one. -/
theorem WellFormed.step {h : History} (hw : h.WellFormed) (s : Step) : (h.step s).WellFormed := by
  have hread (d : Data) : ((ofData? d).getD h).WellFormed := by
    cases hd : ofData? d with
    | none => exact hw
    | some h' => exact wellFormed_of_ofData? hd
  cases s with
  | record query =>
    rw [hw.eq_distinctQueries, History.step, record_eq]
    exact wellFormed_distinctQueries _ _
  | clear => exact wellFormed_withCapacity h.capacity
  | restore d => exact hread d
  | roundTrip => exact hread h.toData

theorem WellFormed.run {h : History} (hw : h.WellFormed) (steps : List Step) :
    (h.run steps).WellFormed :=
  List.foldlRecOn steps _ hw fun _ hw s _ => hw.step s

theorem WellFormed.step_roundTrip {h : History} (hw : h.WellFormed) :
    h.step .roundTrip = ⟨20, h.entries.take 20⟩ := by
  rw [History.step, toData, ofData?_texts, Option.getD_some, ofEntries_eq,
    distinctQueries_eq_self hw.nodup hw.trimmed]

/-! ## Runs of recorded queries -/

theorem run_record (capacity : Nat) (queries : List Text) :
    (withCapacity capacity).run (queries.map .record) =
      ⟨capacity, (distinctQueries queries.reverse).take capacity⟩ := by
  rw [← foldr_record, List.foldr_reverse, run, List.foldl_map]
  rfl

/-- A run starts with an empty history of any capacity. In every state that it reaches the queries
are different from each other, trimmed, not blank, and at most as many as the capacity. Queries
recorded into a new history, or after the last clearing, leave the latest of them, each where it was
recorded last, up to the capacity. A list of texts is restored up to 20 queries, in its order and
with the first of equal ones; so writing and reading keeps the first 20 queries as they are. -/
theorem entries_of_run (capacity : Nat) (steps : List Step) :
    let h := (withCapacity capacity).run steps
    h.WellFormed ∧
    (∀ queries : List Text,
      ((withCapacity capacity).run (queries.map .record)).entries =
        (distinctQueries queries.reverse).take capacity ∧
      (h.run (.clear :: queries.map .record)).entries =
        (distinctQueries queries.reverse).take h.capacity) ∧
    (∀ texts : List Text, h.step (.restore (.list (texts.map .text))) =
      ⟨20, (distinctQueries texts).take 20⟩) ∧
    h.step .roundTrip = ⟨20, h.entries.take 20⟩ := by
  intro h
  have hw : h.WellFormed := (wellFormed_withCapacity capacity).run steps
  refine ⟨hw, fun queries => ⟨?_, ?_⟩, fun texts => ?_, hw.step_roundTrip⟩
  · rw [run_record]
  · have hclear : h.run (.clear :: queries.map .record) =
        (withCapacity h.capacity).run (queries.map .record) := rfl
    rw [hclear, run_record]
  · rw [step, ofData?_texts, Option.getD_some, ofEntries_eq]

/-- A query that was cut off does not come back when another one moves to the front. -/
example :
    let record (query : String) := Step.record query.toList
    ((withCapacity 2).run [record "a", record "b", record "c", record " ", record " b "]).entries =
      ["b".toList, "c".toList] := by
  decide

end DocumentSearch.History
