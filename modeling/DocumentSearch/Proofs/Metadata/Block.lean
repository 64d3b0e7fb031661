import DocumentSearch.Proofs.Lists
import DocumentSearch.Proofs.Metadata.Value

/-!
# Blocks that are written and read

An entry is written as a line `key: value`. The lines of writable entries under different keys are
read back as the map of these entries.

Results:

* `Metadata.entries_insertAll_perm`, `Metadata.get?_insertAll`: entries under different keys that
  are put into a map one after another are the entries of the map.
* `entryOfLine?_entryLine`: an entry is read back from its line.
* `readBlock_intercalate`: the entries are read back from a block of their lines.
-/

namespace DocumentSearch

open Text

variable {entry : Text × MetadataValue} {entries : List (Text × MetadataValue)}

/-! ## Maps from entries -/

namespace Metadata

/-- Puts the values of all entries under their keys. -/
def insertAll (m : Metadata) (entries : List (Text × MetadataValue)) : Metadata :=
  entries.foldl (fun m entry => m.insert entry.1 entry.2) m

theorem insertEntry_perm {key : Text} (value : MetadataValue) (h : key ∉ entries.map Prod.fst) :
    (insertEntry key value entries).Perm ((key, value) :: entries) := by
  induction entries with
  | nil => exact List.Perm.refl _
  | cons first entries ih =>
    rw [List.map_cons, List.mem_cons, not_or] at h
    rw [insertEntry, if_neg h.1]
    split
    · exact List.Perm.refl _
    · exact ((ih h.2).cons first).trans (List.Perm.swap _ _ _)

theorem entries_insertAll_perm {m : Metadata}
    (h : ((entries ++ m.entries).map Prod.fst).Nodup) :
    (m.insertAll entries).entries.Perm (entries ++ m.entries) := by
  induction entries generalizing m with
  | nil => exact List.Perm.refl _
  | cons entry entries ih =>
    rw [List.cons_append, List.map_cons, List.nodup_cons] at h
    have hfresh : entry.1 ∉ m.entries.map Prod.fst := fun hmem =>
      h.1 (by rw [List.map_append]; exact List.mem_append_right _ hmem)
    have hinsert : (entries ++ (m.insert entry.1 entry.2).entries).Perm
        (entry :: (entries ++ m.entries)) :=
      ((insertEntry_perm entry.2 hfresh).append_left entries).trans List.perm_middle
    have hnodup : ((entries ++ (m.insert entry.1 entry.2).entries).map Prod.fst).Nodup :=
      (hinsert.map Prod.fst).nodup_iff.2 (List.nodup_cons.2 h)
    exact (ih hnodup).trans hinsert

theorem get?_insertAll {m : Metadata} (h : (entries.map Prod.fst).Nodup) (key : Text) :
    (m.insertAll entries).get? key = (entries.lookup key).or (m.get? key) := by
  induction entries generalizing m with
  | nil => rfl
  | cons entry entries ih =>
    obtain ⟨hentry, hentries⟩ := List.nodup_cons.1 h
    have hstep : (m.insertAll (entry :: entries)).get? key =
        (entries.lookup key).or ((m.insert entry.1 entry.2).get? key) := ih hentries
    by_cases hkey : key = entry.1
    · rw [hstep, hkey, lookup_eq_none_iff_notMem.2 hentry, get?_insert_self, List.lookup_cons,
        beq_self_eq_true]
      rfl
    · rw [hstep, get?_insert_of_ne _ _ hkey, List.lookup_cons, beq_eq_false_iff_ne.2 hkey]

end Metadata

/-! ## Lines -/

/-- A key that can be written at the beginning of a line. -/
structure IsPlainKey (key : Text) : Prop where
  ne_nil : key ≠ []
  trimmed : trim key = key
  colon_notMem : ':' ∉ key
  lineFeed_notMem : '\n' ∉ key
  head?_ne : key.head? ≠ some '#'

/-- Can the entry be written so that it is read back? -/
structure IsWritableEntry (entry : Text × MetadataValue) : Prop where
  key : IsPlainKey entry.1
  value : entry.2.IsWritable

instance : DecidablePred IsPlainKey := fun key =>
  decidable_of_iff
    (key ≠ [] ∧ trim key = key ∧ ':' ∉ key ∧ '\n' ∉ key ∧ key.head? ≠ some '#')
    ⟨fun ⟨hne, htrim, hcolon, hline, hhead⟩ => ⟨hne, htrim, hcolon, hline, hhead⟩,
    fun h => ⟨h.ne_nil, h.trimmed, h.colon_notMem, h.lineFeed_notMem, h.head?_ne⟩⟩

instance : DecidablePred IsWritableEntry := fun entry =>
  decidable_of_iff (IsPlainKey entry.1 ∧ entry.2.IsWritable)
    ⟨fun ⟨hkey, hvalue⟩ => ⟨hkey, hvalue⟩, fun h => ⟨h.key, h.value⟩⟩

/-- An entry as a line. -/
def entryLine (entry : Text × MetadataValue) : Text := entry.1 ++ ':' :: ' ' :: entry.2.written

namespace IsWritableEntry

/-- White space around a line stands behind the colon, if the value is empty, and nowhere else. -/
theorem trim_entryLine (h : IsWritableEntry entry) :
    ∃ rest, trim (entryLine entry) = entry.1 ++ ':' :: rest ∧ trim rest = entry.2.written := by
  obtain ⟨hhead, -⟩ := trim_eq_self_iff.1 h.key.trimmed
  obtain ⟨hvalue, -⟩ := h.value.trimmed_and_lineFeed_notMem
  have htrim {t : Text} (hlast : ∀ c ∈ t.getLast?, isWhiteSpace c = false) (hne : t ≠ []) :
      trim (entry.1 ++ t) = entry.1 ++ t := by
    refine trim_eq_self_iff.2 ⟨?_, ?_⟩
    · rwa [List.head?_append_of_ne_nil _ h.key.ne_nil]
    · rwa [List.getLast?_append_of_ne_nil _ hne]
  by_cases hempty : entry.2.written = []
  · refine ⟨[], ?_, by rw [hempty]; rfl⟩
    have hline : entryLine entry = entry.1 ++ [':'] ++ [' '] := by
      rw [entryLine, hempty, List.append_assoc]
      rfl
    have hcolon : ∀ c ∈ [':'].getLast?, isWhiteSpace c = false := by
      intro c hc
      cases hc
      decide
    rw [hline, trim_append_of_isWhiteSpace (by decide), htrim hcolon (List.cons_ne_nil _ _)]
  · refine ⟨' ' :: entry.2.written, htrim ?_ (List.cons_ne_nil _ _), ?_⟩
    · have hlast := (trim_eq_self_iff.1 hvalue).2
      rwa [← List.getLast?_append_of_ne_nil [':', ' '] hempty] at hlast
    · rw [trim_cons_of_isWhiteSpace (by decide), hvalue]

theorem entryOfLine?_entryLine (h : IsWritableEntry entry) :
    entryOfLine? (entryLine entry) = some (entry.1, entry.2.written) := by
  obtain ⟨rest, hline, hrest⟩ := h.trim_entryLine
  have hsplit : splitOnce ':' (entry.1 ++ ':' :: rest) = some (entry.1, rest) :=
    splitOnce_eq_some_iff.2 ⟨rfl, h.key.colon_notMem⟩
  have hentry : ¬ ((entry.1 ++ ':' :: rest).isEmpty ||
      (entry.1 ++ ':' :: rest).head? == some '#') = true := by
    rw [Bool.or_eq_true, not_or, List.isEmpty_iff, beq_iff_eq,
      List.head?_append_of_ne_nil _ h.key.ne_nil]
    exact ⟨List.append_ne_nil_of_right_ne_nil _ (List.cons_ne_nil _ _), h.key.head?_ne⟩
  rw [entryOfLine?, hline, if_neg hentry, hsplit]
  simp only [Option.map_some, h.key.trimmed, hrest]

theorem isLine_entryLine (h : IsWritableEntry entry) : IsLine (entryLine entry) := by
  obtain ⟨hvalue, hlineFeed⟩ := h.value.trimmed_and_lineFeed_notMem
  refine ⟨fun hmem => ?_, fun hlast => ?_⟩
  · rcases List.mem_append.1 hmem with hmem | hmem
    · exact h.key.lineFeed_notMem hmem
    · exact hlineFeed (by simpa using hmem)
  · by_cases hempty : entry.2.written = []
    · rw [entryLine, hempty, List.getLast?_append_of_ne_nil _ (List.cons_ne_nil _ _)] at hlast
      exact absurd hlast (by decide)
    · have hend : (entryLine entry).getLast? = entry.2.written.getLast? := by
        rw [entryLine, List.getLast?_append_of_ne_nil _ (List.cons_ne_nil _ _)]
        exact List.getLast?_append_of_ne_nil [':', ' '] hempty
      have hblank := (trim_eq_self_iff.1 hvalue).2 '\r' (hend ▸ hlast)
      exact absurd hblank (by decide)

end IsWritableEntry

theorem colon_mem_entryLine (entry : Text × MetadataValue) : ':' ∈ entryLine entry :=
  List.mem_append_right _ List.mem_cons_self

/-! ## Blocks -/

theorem readEntries_map_entryLine (h : ∀ entry ∈ entries, IsWritableEntry entry) (number : Nat)
    (m : Metadata) : readEntries number m (entries.map entryLine) = .ok (m.insertAll entries) := by
  induction entries generalizing number m with
  | nil => rfl
  | cons entry entries ih =>
    obtain ⟨hentry, hentries⟩ := List.forall_mem_cons.1 h
    have hkey : ¬ entry.1.isEmpty = true := by simpa using hentry.key.ne_nil
    rw [List.map_cons, readEntries, hentry.entryOfLine?_entryLine]
    simp only [if_neg hkey, hentry.value.readValue_written]
    exact ih hentries _ _

theorem readBlock_intercalate (h : ∀ entry ∈ entries, IsWritableEntry entry) :
    readBlock (['\n'].intercalate (entries.map entryLine)) =
      .ok (Metadata.empty.insertAll entries) := by
  have hlines : ∀ line ∈ entries.map entryLine, IsLine line ∧ line ≠ [] := by
    refine List.forall_mem_map.2 fun entry hentry => ⟨(h entry hentry).isLine_entryLine, ?_⟩
    exact List.ne_nil_of_mem (colon_mem_entryLine entry)
  rw [readBlock, lines_intercalate hlines, readEntries_map_entryLine h]

end DocumentSearch
