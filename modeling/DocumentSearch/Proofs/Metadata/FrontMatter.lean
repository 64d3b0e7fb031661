import DocumentSearch.Metadata.FrontMatter
import DocumentSearch.Proofs.Metadata.Block

/-!
# Front matter that is written and read

A block ends at the first line break that a delimiter line follows. No entry is a delimiter line,
since it has a colon, so a block of entries is cut off behind its last entry whatever the body is.

Results:

* `splitBlock?_append_cons`: no block ends inside a line.
* `bodyHere?_lineFeed_eq_none`: a block ends before no line but the delimiter.
* `splitBlock?_intercalate`: a block of lines ends behind its last line.
* `FrontMatter.ofText_written`: writable entries and any body are read back.
-/

namespace DocumentSearch

open Text

/-! ## Ends of blocks -/

theorem afterHyphens?_eq_some_iff {t rest : Text} :
    afterHyphens? t = some rest ↔ t = ['-', '-', '-'] ++ rest := by
  constructor
  · intro h
    unfold afterHyphens? at h
    split at h
    · rw [Option.some.inj h]
      rfl
    · cases h
  · rintro rfl
    rfl

theorem afterLineBreak?_eq_none {c : Char} {t : Text} (hc : c ≠ '\n')
    (hbreak : c = '\r' → t.head? ≠ some '\n') : afterLineBreak? (c :: t) = none := by
  rw [afterLineBreak?]
  · intro t' h
    exact hc (List.cons.inj h).1
  · intro t' h
    obtain ⟨hreturn, rfl⟩ := List.cons.inj h
    exact hbreak hreturn rfl

/-- No block ends inside a line. -/
theorem splitBlock?_append_cons {l : Text} (h : IsLine l) (t : Text) :
    splitBlock? (l ++ '\n' :: t) =
      (splitBlock? ('\n' :: t)).map fun (block, body) => (l ++ block, body) := by
  induction l with
  | nil =>
    rw [List.nil_append]
    exact Option.map_id'.symm
  | cons c l ih =>
    obtain ⟨hl, hc, hbreak⟩ := h.of_cons ('\n' :: t)
    have hhere : bodyHere? (c :: (l ++ '\n' :: t)) = none := by
      rw [bodyHere?, afterLineBreak?_eq_none hc hbreak]
      rfl
    rw [List.cons_append, splitBlock?, hhere, ih hl, Option.map_map]
    rfl

/-- A block ends before no line but the delimiter. -/
theorem bodyHere?_lineFeed_eq_none {l : Text} (h : IsLine l) (hl : l ≠ ['-', '-', '-']) (t : Text) :
    bodyHere? ('\n' :: (l ++ '\n' :: t)) = none := by
  rw [bodyHere?, afterLineBreak?, Option.bind_some]
  cases hrest : afterHyphens? (l ++ '\n' :: t) with
  | none => rfl
  | some rest =>
    rw [afterHyphens?_eq_some_iff, List.append_eq_append_iff] at hrest
    rcases hrest with ⟨more, hdelimiter, hmore⟩ | ⟨more, rfl, rfl⟩
    · cases more with
      | nil => exact absurd (by simpa using hdelimiter.symm) hl
      | cons c more =>
        -- The line feed behind the line would be a hyphen.
        rw [List.cons_append, List.cons.injEq] at hmore
        have hhyphen : '\n' ∈ ['-', '-', '-'] := by
          rw [hdelimiter, hmore.1]
          exact List.mem_append_right _ List.mem_cons_self
        exact absurd hhyphen (by decide)
    · cases more with
      | nil => exact absurd rfl hl
      | cons c more =>
        have hmore : IsLine (c :: more) := by
          refine ⟨fun hmem => h.lineFeed_notMem (List.mem_append_right _ hmem), ?_⟩
          rw [← List.getLast?_append_of_ne_nil ['-', '-', '-'] (List.cons_ne_nil c more)]
          exact h.getLast?_ne
        obtain ⟨-, hc, hbreak⟩ := hmore.of_cons ('\n' :: t)
        exact afterLineBreak?_eq_none hc hbreak

/-- A line that is not the delimiter belongs to the block, with the line feed before it. -/
theorem splitBlock?_lineFeed_append_cons {l : Text} (h : IsLine l) (hl : l ≠ ['-', '-', '-'])
    (t : Text) :
    splitBlock? ('\n' :: (l ++ '\n' :: t)) =
      (splitBlock? ('\n' :: t)).map fun (block, body) => ('\n' :: l ++ block, body) := by
  rw [splitBlock?, bodyHere?_lineFeed_eq_none h hl, splitBlock?_append_cons h, Option.map_map]
  rfl

/-! ## Blocks of lines -/

theorem intercalate_cons_eq_append_flatMap (l : Text) (ls : List Text) :
    ['\n'].intercalate (l :: ls) = l ++ ls.flatMap ('\n' :: ·) := by
  induction ls generalizing l with
  | nil => simp
  | cons next ls ih =>
    rw [List.intercalate_cons_cons, ih, List.flatMap_cons, List.append_assoc]
    rfl

/-- A line feed stands before the next line, and before the delimiter. -/
theorem exists_flatMap_append_eq_cons (ls : List Text) (body : Text) :
    ∃ t, ls.flatMap ('\n' :: ·) ++ ("\n---\n".toList ++ body) = '\n' :: t := by
  cases ls <;> exact ⟨_, rfl⟩

theorem splitBlock?_flatMap {ls : List Text} (h : ∀ l ∈ ls, IsLine l ∧ l ≠ ['-', '-', '-'])
    (body : Text) :
    splitBlock? (ls.flatMap ('\n' :: ·) ++ ("\n---\n".toList ++ body)) =
      some (ls.flatMap ('\n' :: ·), body) := by
  induction ls with
  | nil => rfl
  | cons l ls ih =>
    obtain ⟨⟨hl, hdelimiter⟩, hls⟩ := List.forall_mem_cons.1 h
    have ih := ih hls
    obtain ⟨t, ht⟩ := exists_flatMap_append_eq_cons ls body
    rw [ht] at ih
    rw [List.flatMap_cons, List.append_assoc, ht, List.cons_append,
      splitBlock?_lineFeed_append_cons hl hdelimiter, ih]
    rfl

/-- Behind the last line of a block stands the delimiter, behind it the body. -/
theorem splitBlock?_intercalate {ls : List Text}
    (h : ∀ l ∈ ls, IsLine l ∧ l ≠ ['-', '-', '-']) (body : Text) :
    splitBlock? (['\n'].intercalate ls ++ ("\n---\n".toList ++ body)) =
      some (['\n'].intercalate ls, body) := by
  cases ls with
  | nil => rfl
  | cons l ls =>
    obtain ⟨⟨hl, -⟩, hls⟩ := List.forall_mem_cons.1 h
    have hrest := splitBlock?_flatMap hls body
    obtain ⟨t, ht⟩ := exists_flatMap_append_eq_cons ls body
    rw [ht] at hrest
    rw [intercalate_cons_eq_append_flatMap, List.append_assoc, ht, splitBlock?_append_cons hl,
      hrest]
    rfl

/-! ## Texts with front matter -/

namespace FrontMatter

/-- A text with the entries as front matter. -/
def written (entries : List (Text × MetadataValue)) (body : Text) : Text :=
  "---\n".toList ++ (['\n'].intercalate (entries.map entryLine) ++ ("\n---\n".toList ++ body))

/-- Front matter that is written is read back: the metadata has the entries and no others, the body
is the body, and there is no error. -/
theorem ofText_written {entries : List (Text × MetadataValue)}
    (hkeys : (entries.map Prod.fst).Nodup) (hentries : ∀ entry ∈ entries, IsWritableEntry entry)
    (body : Text) :
    ∃ m : Metadata, ofText (written entries body) = ⟨m, body, none⟩ ∧
      m.entries.Perm entries ∧ ∀ key, m.get? key = entries.lookup key := by
  have hlines : ∀ l ∈ entries.map entryLine, IsLine l ∧ l ≠ ['-', '-', '-'] := by
    refine List.forall_mem_map.2 fun entry hentry => ⟨(hentries entry hentry).isLine_entryLine, ?_⟩
    exact fun h => absurd (h ▸ colon_mem_entryLine entry) (by decide)
  have hblock : frontBlock? (written entries body) =
      some (['\n'].intercalate (entries.map entryLine), body) :=
    splitBlock?_intercalate hlines body
  refine ⟨Metadata.empty.insertAll entries, ?_, ?_, fun key => ?_⟩
  · rw [ofText, hblock]
    simp only [readBlock_intercalate hentries]
  · have hnodup : ((entries ++ Metadata.empty.entries).map Prod.fst).Nodup := by
      rwa [Metadata.empty, List.append_nil]
    have hperm := Metadata.entries_insertAll_perm hnodup
    rw [Metadata.empty, List.append_nil] at hperm
    exact hperm
  · rw [Metadata.get?_insertAll hkeys, Metadata.get?_empty, Option.or_none]

/-- An essay with an entry of each kind, and a delimiter in its body. -/
theorem ofText_written_essay :
    let entries : List (Text × MetadataValue) :=
      [("title".toList, .text "Sets: an essay".toList), ("part".toList, .integer (-3)),
        ("draft".toList, .boolean true), ("tags".toList, .list ["sets".toList, "logic".toList])]
    let text :=
      "---\ntitle: Sets: an essay\npart: -3\ndraft: true\ntags: [sets, logic]\n---\nA\n---\n".toList
    written entries "A\n---\n".toList = text ∧
      ∃ m : Metadata, ofText text = ⟨m, "A\n---\n".toList, none⟩ ∧
        m.entries.Perm entries ∧ ∀ key, m.get? key = entries.lookup key := by
  intro entries text
  have hkeys : (entries.map Prod.fst).Nodup := by decide
  have hentries : ∀ entry ∈ entries, IsWritableEntry entry := by decide +kernel
  exact ⟨rfl, ofText_written hkeys hentries _⟩

end FrontMatter

end DocumentSearch
