import DocumentSearch.Proofs.Metadata.Block

/-!
# Entries of a block

Which lines of a block have an entry, and which of these are at fault. A block is read line by line:
the first line at fault ends the reading with its error. If there is none, every entry is put into
the metadata, where a later one takes the place of an earlier one under the same key.

Results:

* `entryOfLine?_eq_some_iff`, `readValue_eq_error_iff`: entries and unclosed lists, said without the
  readers.
* `Metadata.IsOrdered.insertAll`: the keys stay in order, and each of them is there once.
* `Metadata.get?_insertAll_reverse`: what is found under a key was put there last.
* `readEntries_append`: reading goes on behind lines that are not at fault.
* `readBlock_eq_error_iff`, `readBlock_eq_ok_iff`: the two outcomes of a block.
* `readBlock_first_fault_or_last_values`: the error of the first line at fault, or under each key
  the value of its last line.
-/

namespace DocumentSearch

open Text

variable {line key raw : Text} {ls : List Text} {e : MetadataError}

/-! ## Lines with an entry -/

/-- The line has an entry: behind white space it is neither empty nor a comment, and it has a colon.
The key stands before the first colon and the value behind it. -/
structure HasEntry (line key raw : Text) : Prop where
  ne_nil : trim line ≠ []
  head?_ne : (trim line).head? ≠ some '#'
  exists_split : ∃ before behind, trim line = before ++ ':' :: behind ∧ ':' ∉ before ∧
    trim before = key ∧ trim behind = raw

theorem entryOfLine?_eq_some_iff : entryOfLine? line = some (key, raw) ↔ HasEntry line key raw := by
  have hsilent : ((trim line).isEmpty || (trim line).head? == some '#') = true ↔
      trim line = [] ∨ (trim line).head? = some '#' := by
    rw [Bool.or_eq_true, List.isEmpty_iff, beq_iff_eq]
  rw [entryOfLine?]
  constructor
  · intro h
    split at h
    · cases h
    · next hentry =>
      rw [hsilent, not_or] at hentry
      obtain ⟨⟨before, behind⟩, hsplit, hparts⟩ := Option.map_eq_some_iff.1 h
      obtain ⟨hline, hcolon⟩ := splitOnce_eq_some_iff.1 hsplit
      obtain ⟨hkey, hraw⟩ := Prod.mk.inj hparts
      exact ⟨hentry.1, hentry.2, before, behind, hline, hcolon, hkey, hraw⟩
  · rintro ⟨hne, hhead, before, behind, hline, hcolon, rfl, rfl⟩
    have hentry := not_or.2 ⟨hne, hhead⟩
    rw [← hsilent] at hentry
    rw [if_neg hentry, splitOnce_eq_some_iff.2 ⟨hline, hcolon⟩]
    rfl

/-! ## Lines at fault -/

/-- Without its quotes the value begins with a bracket, and behind this one no bracket closes it. -/
def IsUnclosedList (raw : Text) : Prop := ∃ inner, unquote raw = '[' :: inner ∧ ¬ [']'] <:+ inner

/-- The line has an entry without a key, or with a list that is not closed. -/
def IsFaulty (line : Text) : Prop :=
  ∃ key raw, HasEntry line key raw ∧ (key = [] ∨ IsUnclosedList raw)

/-- The error of a line at fault, which has the given number. -/
inductive IsFaultAt (number : Nat) (line : Text) : MetadataError → Prop
  | emptyKey {raw : Text} (hentry : HasEntry line [] raw) :
      IsFaultAt number line (.emptyKey number)
  | unclosedList {key raw : Text} (hentry : HasEntry line key raw) (hkey : key ≠ [])
      (hraw : IsUnclosedList raw) : IsFaultAt number line (.unterminatedList key)

theorem IsFaultAt.isFaulty {number : Nat} (h : IsFaultAt number line e) : IsFaulty line := by
  cases h with
  | emptyKey hentry => exact ⟨_, _, hentry, .inl rfl⟩
  | unclosedList hentry _ hraw => exact ⟨_, _, hentry, .inr hraw⟩

theorem IsFaulty.exists_isFaultAt (h : IsFaulty line) (number : Nat) :
    ∃ e, IsFaultAt number line e := by
  obtain ⟨key, raw, hentry, hfault⟩ := h
  by_cases hkey : key = []
  · subst hkey
    exact ⟨_, .emptyKey hentry⟩
  · exact ⟨_, .unclosedList hentry hkey (hfault.resolve_left hkey)⟩

/-- No value but an unclosed list is refused. -/
theorem readValue_eq_error_iff :
    readValue key raw = .error e ↔ IsUnclosedList raw ∧ e = .unterminatedList key := by
  rw [readValue]
  split
  · next inner hinner =>
    have hlist : IsUnclosedList raw ↔ ¬ [']'] <:+ inner := by
      rw [IsUnclosedList, hinner]
      simp
    rw [hlist, ← beforeSuffix?_eq_none_iff]
    cases beforeSuffix? [']'] inner with
    | none => simp [eq_comm]
    | some items => simp
  · next hvalue =>
    have hlist : ¬ IsUnclosedList raw := by
      rintro ⟨inner, hinner, -⟩
      exact hvalue inner hinner
    simp [hlist]

/-! ## Entries put into the metadata -/

namespace Metadata

/-- The entries stand in the order of their keys, and no key stands there twice. -/
def IsOrdered (m : Metadata) : Prop :=
  m.entries.Pairwise fun a b => a.1 ≠ b.1 ∧ atMost a.1 b.1 = true

theorem isOrdered_empty : IsOrdered empty := List.Pairwise.nil

theorem mem_insertEntry {value : MetadataValue} {entry : Text × MetadataValue}
    {entries : List (Text × MetadataValue)} (h : entry ∈ insertEntry key value entries) :
    entry = (key, value) ∨ entry ∈ entries := by
  induction entries with
  | nil => exact .inl (List.mem_singleton.1 h)
  | cons first entries ih =>
    rw [insertEntry] at h
    split at h
    · exact (List.mem_cons.1 h).imp_right (List.mem_cons_of_mem _)
    · split at h
      · exact List.mem_cons.1 h
      · rcases List.mem_cons.1 h with rfl | h
        · exact .inr List.mem_cons_self
        · exact (ih h).imp_right (List.mem_cons_of_mem _)

theorem IsOrdered.insert {m : Metadata} (h : m.IsOrdered) (key : Text) (value : MetadataValue) :
    (m.insert key value).IsOrdered := by
  obtain ⟨entries⟩ := m
  simp only [IsOrdered, Metadata.insert] at h ⊢
  induction entries with
  | nil => exact List.pairwise_singleton _ _
  | cons first entries ih =>
    obtain ⟨hfirst, hentries⟩ := List.pairwise_cons.1 h
    rw [insertEntry]
    split
    · next hkey => exact List.pairwise_cons.2 ⟨fun entry hmem => hkey ▸ hfirst entry hmem, hentries⟩
    · next hkey =>
      split
      · next hbefore =>
        refine List.pairwise_cons.2 ⟨List.forall_mem_cons.2 ⟨⟨hkey, hbefore⟩, ?_⟩, h⟩
        intro entry hmem
        obtain ⟨hne, hle⟩ := hfirst entry hmem
        refine ⟨?_, atMost_trans hbefore hle⟩
        rintro rfl
        exact hkey (atMost_antisymm hbefore hle)
      · next hbehind =>
        refine List.pairwise_cons.2 ⟨fun entry hmem => ?_, ih hentries⟩
        rcases mem_insertEntry hmem with rfl | hmem
        · have hle := (Bool.or_eq_true_iff.1 (atMost_total key first.1)).resolve_left hbehind
          exact ⟨fun he => hkey he.symm, hle⟩
        · exact hfirst entry hmem

theorem IsOrdered.insertAll {m : Metadata} (h : m.IsOrdered)
    (entries : List (Text × MetadataValue)) : (m.insertAll entries).IsOrdered := by
  induction entries generalizing m with
  | nil => exact h
  | cons entry entries ih => exact ih (h.insert entry.1 entry.2)

/-- What is found under a key was put there last. -/
theorem get?_insertAll_reverse (m : Metadata) (entries : List (Text × MetadataValue)) (key : Text) :
    (m.insertAll entries).get? key = (entries.reverse.lookup key).or (m.get? key) := by
  induction entries generalizing m with
  | nil => rfl
  | cons entry entries ih =>
    have hstep : (m.insertAll (entry :: entries)).get? key =
        (entries.reverse.lookup key).or ((m.insert entry.1 entry.2).get? key) := ih _
    rw [hstep, List.reverse_cons, List.lookup_append, Option.or_assoc]
    congr 1
    by_cases hkey : key = entry.1
    · rw [hkey, get?_insert_self, List.lookup_cons, beq_self_eq_true]
      rfl
    · rw [get?_insert_of_ne _ _ hkey, List.lookup_cons, beq_eq_false_iff_ne.2 hkey]
      rfl

end Metadata

/-! ## Reading line by line -/

/-- The key and the value that are read from the line, if it has an entry that is not at fault. -/
def valueOfLine? (line : Text) : Option (Text × MetadataValue) :=
  (entryOfLine? line).bind fun (key, raw) => (readValue key raw).toOption.map (key, ·)

theorem valueOfLine?_eq_some_iff {value : MetadataValue} :
    valueOfLine? line = some (key, value) ↔
      ∃ raw, HasEntry line key raw ∧ readValue key raw = .ok value := by
  simp only [valueOfLine?, Option.bind_eq_some_iff, Option.map_eq_some_iff, Prod.exists,
    Prod.mk.injEq, entryOfLine?_eq_some_iff]
  constructor
  · rintro ⟨key', raw, hentry, value', hvalue, rfl, rfl⟩
    refine ⟨raw, hentry, ?_⟩
    cases hread : readValue key' raw with
    | ok read => rw [hread] at hvalue; exact congrArg _ (Option.some.inj hvalue)
    | error e => rw [hread] at hvalue; cases hvalue
  · rintro ⟨raw, hentry, hvalue⟩
    exact ⟨key, raw, hentry, value, by rw [hvalue]; rfl, rfl, rfl⟩

/-- The value of a line that is not at fault can be read. -/
theorem HasEntry.exists_valueOfLine? (hentry : HasEntry line key raw) (hline : ¬ IsFaulty line) :
    ∃ value, readValue key raw = .ok value ∧ valueOfLine? line = some (key, value) := by
  cases hread : readValue key raw with
  | ok value => exact ⟨value, rfl, valueOfLine?_eq_some_iff.2 ⟨raw, hentry, hread⟩⟩
  | error e => exact absurd ⟨key, raw, hentry, .inr (readValue_eq_error_iff.1 hread).1⟩ hline

theorem readEntries_cons_of_isFaultAt {number : Nat} (h : IsFaultAt number line e) (m : Metadata)
    (ls : List Text) : readEntries number m (line :: ls) = .error e := by
  cases h with
  | emptyKey hentry =>
    rw [readEntries, entryOfLine?_eq_some_iff.2 hentry]
    rfl
  | unclosedList hentry hkey hraw =>
    have hne : ¬ (List.isEmpty _ = true) := fun he => hkey (List.isEmpty_iff.1 he)
    rw [readEntries, entryOfLine?_eq_some_iff.2 hentry]
    simp only [if_neg hne, readValue_eq_error_iff.2 ⟨hraw, rfl⟩]

/-- A line that is not at fault adds its value, if it has one. -/
theorem readEntries_cons_of_not_isFaulty (h : ¬ IsFaulty line) (number : Nat) (m : Metadata)
    (ls : List Text) : readEntries number m (line :: ls) =
      readEntries (number + 1) (m.insertAll (valueOfLine? line).toList) ls := by
  rw [readEntries]
  cases hentry : entryOfLine? line with
  | none => simp only [valueOfLine?, hentry]; rfl
  | some entry =>
    obtain ⟨key, raw⟩ := entry
    rw [entryOfLine?_eq_some_iff] at hentry
    obtain ⟨value, hvalue, hline⟩ := hentry.exists_valueOfLine? h
    have hne : ¬ (key.isEmpty = true) := fun he =>
      h ⟨key, raw, hentry, .inl (List.isEmpty_iff.1 he)⟩
    simp only [if_neg hne, hvalue, hline]
    rfl

/-- Reading goes on behind lines that are not at fault, with the number of the next line. -/
theorem readEntries_append {before : List Text} (h : ∀ line ∈ before, ¬ IsFaulty line)
    (number : Nat) (m : Metadata) (ls : List Text) : readEntries number m (before ++ ls) =
      readEntries (number + before.length) (m.insertAll (before.filterMap valueOfLine?)) ls := by
  induction before generalizing number m with
  | nil => rfl
  | cons line before ih =>
    obtain ⟨hline, hbefore⟩ := List.forall_mem_cons.1 h
    rw [List.cons_append, readEntries_cons_of_not_isFaulty hline, ih hbefore]
    congr 1
    · rw [List.length_cons]
      omega
    · rw [List.filterMap_cons]
      cases valueOfLine? line <;> rfl

/-! ## Blocks -/

/-- Either no line is at fault, or one is the first that is. -/
theorem no_fault_or_first_fault (ls : List Text) : (∀ line ∈ ls, ¬ IsFaulty line) ∨
    ∃ before line behind e, ls = before ++ line :: behind ∧ (∀ l ∈ before, ¬ IsFaulty l) ∧
      IsFaultAt (before.length + 1) line e := by
  by_cases hfaulty : ∃ line ∈ ls, IsFaulty line
  · obtain ⟨line, hline, before, behind, hlines, hbefore⟩ := exists_isFirst_of_exists hfaulty
    obtain ⟨e, he⟩ := hline.exists_isFaultAt (before.length + 1)
    exact .inr ⟨before, line, behind, e, hlines, hbefore, he⟩
  · exact .inl fun line hmem hline => hfaulty ⟨line, hmem, hline⟩

section Outcomes

variable {block : Text}

theorem readBlock_eq_ok (h : ∀ line ∈ lines block, ¬ IsFaulty line) :
    readBlock block = .ok (Metadata.empty.insertAll ((lines block).filterMap valueOfLine?)) := by
  have hread := readEntries_append h 1 Metadata.empty []
  rwa [List.append_nil] at hread

theorem readBlock_eq_error {before behind : List Text}
    (hlines : lines block = before ++ line :: behind) (h : ∀ l ∈ before, ¬ IsFaulty l)
    (hline : IsFaultAt (before.length + 1) line e) : readBlock block = .error e := by
  rw [Nat.add_comm] at hline
  rw [readBlock, hlines, readEntries_append h, readEntries_cons_of_isFaultAt hline]

theorem readBlock_eq_error_iff : readBlock block = .error e ↔
    ∃ before line behind, lines block = before ++ line :: behind ∧
      (∀ l ∈ before, ¬ IsFaulty l) ∧ IsFaultAt (before.length + 1) line e := by
  constructor
  · intro h
    rcases no_fault_or_first_fault (lines block) with
      hsound | ⟨before, line, behind, e', hlines, hbefore, hline⟩
    · rw [readBlock_eq_ok hsound] at h
      cases h
    · rw [readBlock_eq_error hlines hbefore hline] at h
      cases h
      exact ⟨before, line, behind, hlines, hbefore, hline⟩
  · rintro ⟨before, line, behind, hlines, hbefore, hline⟩
    exact readBlock_eq_error hlines hbefore hline

theorem readBlock_eq_ok_iff {m : Metadata} : readBlock block = .ok m ↔
    (∀ line ∈ lines block, ¬ IsFaulty line) ∧
      m = Metadata.empty.insertAll ((lines block).filterMap valueOfLine?) := by
  constructor
  · intro h
    rcases no_fault_or_first_fault (lines block) with
      hsound | ⟨before, line, behind, e, hlines, hbefore, hline⟩
    · rw [readBlock_eq_ok hsound] at h
      exact ⟨hsound, (Except.ok.inj h).symm⟩
    · rw [readBlock_eq_error hlines hbefore hline] at h
      cases h
  · rintro ⟨hsound, rfl⟩
    exact readBlock_eq_ok hsound

end Outcomes

/-! ## Last values -/

/-- The value is read from the last line that has an entry under the key. -/
def IsLastValue (ls : List Text) (key : Text) (value : MetadataValue) : Prop :=
  ∃ before line behind raw, ls = before ++ line :: behind ∧ HasEntry line key raw ∧
    readValue key raw = .ok value ∧ ∀ l ∈ behind, ∀ raw, ¬ HasEntry l key raw

/-- Lines that are not at fault have the values of their entries, and no others. -/
theorem mem_keys_filterMap_iff (h : ∀ line ∈ ls, ¬ IsFaulty line) :
    key ∈ (ls.filterMap valueOfLine?).map Prod.fst ↔ ∃ line ∈ ls, ∃ raw, HasEntry line key raw := by
  simp only [List.mem_map, List.mem_filterMap, Prod.exists, exists_and_right, exists_eq_right]
  constructor
  · rintro ⟨value, line, hmem, hline⟩
    obtain ⟨raw, hentry, -⟩ := valueOfLine?_eq_some_iff.1 hline
    exact ⟨line, hmem, raw, hentry⟩
  · rintro ⟨line, hmem, raw, hentry⟩
    obtain ⟨value, -, hline⟩ := hentry.exists_valueOfLine? (h line hmem)
    exact ⟨value, line, hmem, hline⟩

theorem forall_not_hasEntry_iff (h : ∀ line ∈ ls, ¬ IsFaulty line) :
    (∀ line ∈ ls, ∀ raw, ¬ HasEntry line key raw) ↔
      ∀ entry ∈ ls.filterMap valueOfLine?, key ≠ entry.1 := by
  have hkeys : key ∉ (ls.filterMap valueOfLine?).map Prod.fst ↔
      ∀ entry ∈ ls.filterMap valueOfLine?, key ≠ entry.1 := by
    simp only [List.mem_map, not_exists, not_and, ne_comm, Ne]
  rw [← hkeys, mem_keys_filterMap_iff h]
  simp only [not_exists, not_and]

/-- The first entry under the key in the reversed list is the last one. -/
theorem lookup_reverse_filterMap_iff (h : ∀ line ∈ ls, ¬ IsFaulty line) {value : MetadataValue} :
    (ls.filterMap valueOfLine?).reverse.lookup key = some value ↔ IsLastValue ls key value := by
  rw [List.lookup_eq_some_iff]
  constructor
  · rintro ⟨later, earlier, hentries, hlater⟩
    rw [List.reverse_eq_iff, List.reverse_append, List.reverse_cons, List.append_assoc,
      List.singleton_append, List.filterMap_eq_append_iff] at hentries
    obtain ⟨before, rest, rfl, -, hrest⟩ := hentries
    obtain ⟨silent, line, behind, rfl, -, hline, hbehind⟩ := List.filterMap_eq_cons_iff.1 hrest
    obtain ⟨raw, hentry, hvalue⟩ := valueOfLine?_eq_some_iff.1 hline
    have hfaultless : ∀ l ∈ behind, ¬ IsFaulty l := fun l hl => h l (by simp [hl])
    refine ⟨before ++ silent, line, behind, raw, by rw [List.append_assoc], hentry, hvalue, ?_⟩
    rw [forall_not_hasEntry_iff hfaultless, hbehind]
    exact fun entry hmem => bne_iff_ne.1 (hlater entry (List.mem_reverse.1 hmem))
  · rintro ⟨before, line, behind, raw, rfl, hentry, hvalue, hbehind⟩
    have hfaultless : ∀ l ∈ behind, ¬ IsFaulty l := fun l hl => h l (by simp [hl])
    rw [forall_not_hasEntry_iff hfaultless] at hbehind
    refine ⟨(behind.filterMap valueOfLine?).reverse, (before.filterMap valueOfLine?).reverse, ?_,
      fun entry hmem => bne_iff_ne.2 (hbehind entry (List.mem_reverse.1 hmem))⟩
    have hline := valueOfLine?_eq_some_iff.2 ⟨raw, hentry, hvalue⟩
    rw [List.filterMap_append, List.filterMap_cons_some hline, List.reverse_append,
      List.reverse_cons, List.append_assoc, List.singleton_append]

section Read

variable {block : Text} {m : Metadata}

theorem isOrdered_of_readBlock (h : readBlock block = .ok m) : m.IsOrdered := by
  obtain ⟨-, rfl⟩ := readBlock_eq_ok_iff.1 h
  exact Metadata.isOrdered_empty.insertAll _

/-- What is found under a key is what the last entry of the block under it says. -/
theorem get?_of_readBlock (h : readBlock block = .ok m) {value : MetadataValue} :
    m.get? key = some value ↔ IsLastValue (lines block) key value := by
  obtain ⟨hlines, rfl⟩ := readBlock_eq_ok_iff.1 h
  rw [Metadata.get?_insertAll_reverse, Metadata.get?_empty, Option.or_none,
    lookup_reverse_filterMap_iff hlines]

/-- The keys are those of the entries of the block. -/
theorem mem_keys_of_readBlock (h : readBlock block = .ok m) :
    key ∈ m.entries.map Prod.fst ↔ ∃ line ∈ lines block, ∃ raw, HasEntry line key raw := by
  obtain ⟨hlines, rfl⟩ := readBlock_eq_ok_iff.1 h
  rw [← lookup_isSome_iff, ← Metadata.get?, Metadata.get?_insertAll_reverse, Metadata.get?_empty,
    Option.or_none, lookup_isSome_iff, List.map_reverse, List.mem_reverse,
    mem_keys_filterMap_iff hlines]

end Read

/-- A block is refused iff a line is at fault, and with the error of the first such line. Otherwise
it has the keys of its entries, each of them with the value of its last line. -/
theorem readBlock_first_fault_or_last_values (block : Text) :
    ((∃ e, readBlock block = .error e) ↔ ∃ line ∈ lines block, IsFaulty line) ∧
    (∀ e, readBlock block = .error e ↔ ∃ before line behind,
      lines block = before ++ line :: behind ∧ (∀ l ∈ before, ¬ IsFaulty l) ∧
        IsFaultAt (before.length + 1) line e) ∧
    ∀ m, readBlock block = .ok m → m.IsOrdered ∧
      (∀ key, key ∈ m.entries.map Prod.fst ↔
        ∃ line ∈ lines block, ∃ raw, HasEntry line key raw) ∧
      ∀ key value, m.get? key = some value ↔ IsLastValue (lines block) key value := by
  refine ⟨⟨?_, ?_⟩, fun e => readBlock_eq_error_iff, fun m hread => ?_⟩
  · rintro ⟨e, he⟩
    obtain ⟨before, line, behind, hlines, -, hline⟩ := readBlock_eq_error_iff.1 he
    exact ⟨line, hlines ▸ List.mem_append_right _ List.mem_cons_self, hline.isFaulty⟩
  · rintro ⟨line, hmem, hline⟩
    cases hread : readBlock block with
    | error e => exact ⟨e, rfl⟩
    | ok m => exact absurd hline ((readBlock_eq_ok_iff.1 hread).1 line hmem)
  · exact ⟨isOrdered_of_readBlock hread, fun key => mem_keys_of_readBlock hread,
      fun key value => get?_of_readBlock hread⟩

example : readBlock "# notes\r\n\r\ntitle: a\n: b\ntags: [c".toList = .error (.emptyKey 4) := by
  rfl

end DocumentSearch
