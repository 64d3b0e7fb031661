import DocumentSearch.Document.Basic
import DocumentSearch.Proofs.Metadata.Delimiter
import DocumentSearch.Proofs.Metadata.PlainValue

/-!
# Documents and their front matter

What a document takes from the front matter of its text. A block that cannot be read is stripped,
and the document has no metadata. A plain value under one of the keys of a document is shown in the
document, where the last line under the key counts.

Results:

* `FrontMatter.get?_metadata_ofText`: under a key stands what the last line under the key says.
* `Document.ofItem_of_error`: the document of an item whose block cannot be read.
* `Document.front_matter_of_shortest_block`: which block a text has, and what becomes of it.
* `Document.plain_value_shown`: plain values in a document.
-/

namespace DocumentSearch

open Text

namespace FrontMatter

variable {t v w : Text} {key : Text}

theorem metadata_ofText_of_error {e : MetadataError} (h : (ofText t).error = some e) :
    (ofText t).metadata = Metadata.empty := by
  rw [ofText] at h ⊢
  cases hblock : frontBlock? t with
  | none => rfl
  | some found =>
    rw [hblock] at h
    cases hread : readBlock found.1 with
    | error e => simp only [hread]
    | ok m => simp only [hread] at h; cases h

/-! ## Last entries -/

/-- A line as it is written. -/
def entryText (key w : Text) : Text := key ++ ": ".toList ++ w

/-- The text has front matter that can be read, and its last line with an entry under the key says
`w`. -/
def HasLastEntry (t key w : Text) : Prop :=
  (ofText t).error = none ∧ ∃ block body, frontBlock? t = some (block, body) ∧
    ∃ before behind, lines block = before ++ entryText key w :: behind ∧
      ∀ l ∈ behind, ∀ raw, ¬ HasEntry l key raw

theorem hasEntry_entryText (hkey : IsPlainKey key) (hne : w ≠ []) (htrim : trim w = w) :
    HasEntry (entryText key w) key w := by
  have hline : trim (entryText key w) = entryText key w := by
    refine trim_eq_self_iff.2 ⟨?_, ?_⟩
    · rw [entryText, List.append_assoc, List.head?_append_of_ne_nil _ hkey.ne_nil]
      exact (trim_eq_self_iff.1 hkey.trimmed).1
    · rw [entryText, List.getLast?_append_of_ne_nil _ hne]
      exact (trim_eq_self_iff.1 htrim).2
  have hsplit : entryText key w = key ++ ':' :: ' ' :: w := List.append_assoc _ _ _
  refine ⟨?_, ?_, key, ' ' :: w, ?_, hkey.colon_notMem, hkey.trimmed, ?_⟩
  · rw [hline, hsplit]
    exact List.append_ne_nil_of_left_ne_nil hkey.ne_nil _
  · rw [hline, hsplit, List.head?_append_of_ne_nil _ hkey.ne_nil]
    exact hkey.head?_ne
  · rw [hline, hsplit]
  · rw [trim_cons_of_isWhiteSpace (by decide), htrim]

/-- Under the key stands the value that the last entry says. -/
theorem get?_metadata_ofText (h : HasLastEntry t key w) (hkey : IsPlainKey key)
    (hv : IsPlainValue v) (hw : IsWrittenAs v w) :
    (ofText t).metadata.get? key = some (scalarValue v) := by
  obtain ⟨herror, block, body, hblock, before, behind, hlines, hlast⟩ := h
  rw [ofText_of_frontBlock? hblock, ofBlock] at herror ⊢
  cases hread : readBlock block with
  | error e => rw [hread] at herror; cases herror
  | ok m =>
    refine (get?_of_readBlock hread).2 ⟨before, entryText key w, behind, w, hlines, ?_, ?_, hlast⟩
    · exact hasEntry_entryText hkey (hw.ne_nil hv.ne_nil) (hv.trim_eq hw)
    · exact hv.readValue_eq hw key

end FrontMatter

/-- What is shown of a value is found as the text under its key. -/
theorem Metadata.text?_eq_shownText {m : Metadata} {key : String} {v : Text}
    (h : m.get? key.toList = some (scalarValue v)) (hv : v ≠ []) :
    m.text? key = some (shownText v) := by
  rw [Metadata.text?, h, Option.bind_some, text?_scalarValue, Option.filter_eq_some_iff]
  exact ⟨rfl, by simpa using shownText_ne_nil hv⟩

theorem mem_addNew_iff {present added : List Text} {tag : Text} :
    tag ∈ addNew present added ↔ tag ∈ present ∨ tag ∈ added := by
  induction added generalizing present with
  | nil => simp [addNew]
  | cons first added ih =>
    have hstep : addNew present (first :: added) =
        addNew (if present.contains first then present else present ++ [first]) added := rfl
    rw [hstep, ih, List.mem_cons]
    split
    · next hfirst =>
      refine ⟨Or.imp_right .inr, ?_⟩
      rintro (h | rfl | h)
      · exact .inl h
      · exact .inl (List.contains_iff_mem.1 hfirst)
      · exact .inr h
    · rw [List.mem_append, List.mem_singleton, or_assoc]

namespace Document

open FrontMatter

variable {item : Item} {t v w : Text}

/-! ## Blocks that cannot be read -/

/-- The document of an item without metadata. The body stands before the code of the item. -/
def withoutMetadata (id : Nat) (item : Item) (body : Text) : Document where
  id := id
  name := item.name
  path := item.path.getD item.name
  kind := item.kind
  title := item.name
  content := lower (body ++ item.rawContent.elim [] ('\n' :: ·))
  tags := item.tags
  author := none
  description := none
  metadata := Metadata.empty

theorem ofItem_of_error {e : MetadataError} (hitem : item.markdown = some t)
    (h : (ofText t).error = some e) (id : Nat) :
    ofItem id item = withoutMetadata id item (ofText t).body := by
  rw [ofItem, hitem, withoutMetadata]
  simp only [Option.map_some, Option.getD_some, metadata_ofText_of_error h]
  cases item.rawContent <;> rfl

/-- A text has a block iff one can stand between two delimiter lines, and then its block is the
shortest of these. The block is read, and what is behind it is the body. A text without a block is
all body, and a block that cannot be read leaves a document without metadata. -/
theorem front_matter_of_shortest_block (t : Text) :
    ((frontBlock? t).isSome = true ↔ ∃ block body, IsSplit t block body) ∧
    (∀ block body, frontBlock? t = some (block, body) ↔ IsShortest (IsSplit t) block body) ∧
    (∀ block body, IsShortest (IsSplit t) block body →
      (∀ m, readBlock block = .ok m → ofText t = ⟨m, body, none⟩) ∧
      ∀ e, readBlock block = .error e → ofText t = ⟨Metadata.empty, body, some e⟩) ∧
    ((∀ block body, ¬ IsSplit t block body) → ofText t = ⟨Metadata.empty, t, none⟩) ∧
    ∀ id item e, item.markdown = some t → (ofText t).error = some e →
      ofItem id item = withoutMetadata id item (ofText t).body := by
  refine ⟨?_, fun _ _ => frontBlock?_eq_some_iff, fun block body h => ⟨fun m hread => ?_,
    fun e hread => ?_⟩, ofText_of_forall_not_isSplit, fun id _ _ hitem he =>
    ofItem_of_error hitem he id⟩
  · rw [Option.isSome_iff_ne_none, Ne, frontBlock?_eq_none_iff]
    simp only [not_forall, not_not]
  · rw [ofText_of_isShortest h, ofBlock, hread]
  · rw [ofText_of_isShortest h, ofBlock, hread]

/-- A block that ends with the text, and an entry in it without a key. -/
theorem front_matter_of_shortest_block_unreadable :
    let t := "---\r\n\r\n: oops\r\n---".toList
    let item : Item := { name := "Notes".toList, tags := ["a".toList], markdown := some t,
                         rawContent := some "Code".toList }
    IsShortest (IsSplit t) "\r\n: oops".toList [] ∧
      ofText t = ⟨Metadata.empty, [], some (.emptyKey 2)⟩ ∧
      ofItem 7 item = withoutMetadata 7 item [] := by
  intro t item
  obtain ⟨-, hblock, hread, -, hdocument⟩ := front_matter_of_shortest_block t
  have hshortest : IsShortest (IsSplit t) "\r\n: oops".toList [] := (hblock _ _).1 rfl
  exact ⟨hshortest, (hread _ _ hshortest).2 (.emptyKey 2) rfl,
    hdocument 7 item (.emptyKey 2) rfl rfl⟩

/-! ## Plain values -/

/-- A plain value in the last line under a key is shown in the document, bare or in quotes: as it is
written iff it is in the notation of what it spells. Under the key of the tags it is a tag if it is
read as a text, as every value is that is no numeral and no truth value. -/
theorem plain_value_shown (hv : IsPlainValue v) (hw : IsWrittenAs v w)
    (hitem : item.markdown = some t) (id : Nat) :
    (HasLastEntry t "title".toList w → (ofItem id item).title = shownText v) ∧
    (HasLastEntry t "author".toList w → (ofItem id item).author = some (shownText v)) ∧
    (HasLastEntry t "description".toList w →
      (ofItem id item).description = some (shownText v)) ∧
    (HasLastEntry t "tags".toList w → IsTextValue v → v ∈ (ofItem id item).tags) ∧
    (shownText v = v ↔ KeepsForm v) ∧
    (¬ IsNumeral v → v.map Char.toLower ∉ ["true".toList, "false".toList] → IsTextValue v) := by
  have hfound (key : String) (hkey : IsPlainKey key.toList) (h : HasLastEntry t key.toList w) :=
    get?_metadata_ofText h hkey hv hw
  have hshown (key : String) (hkey : IsPlainKey key.toList) (h : HasLastEntry t key.toList w) :
      (ofText t).metadata.text? key = some (shownText v) :=
    Metadata.text?_eq_shownText (hfound key hkey h) hv.ne_nil
  rw [ofItem, hitem]
  refine ⟨fun h => ?_, fun h => ?_, fun h => ?_, fun h htext => ?_, shownText_eq_self_iff,
    isTextValue_of_not_isNumeral⟩
  · have := hshown "title" (by decide) h
    simp only [Option.map_some, Option.getD_some, this]
  · exact hshown "author" (by decide) h
  · exact hshown "description" (by decide) h
  · have hitems : (ofText t).metadata.items "tags" = [v] := by
      rw [Metadata.items, hfound "tags" (by decide) h, htext.scalarValue_eq]
      exact List.filter_eq_self.2 (by simpa using hv.ne_nil)
    refine mem_addNew_iff.2 (.inr ?_)
    simp only [Option.map_some, Option.getD_some, hitems, List.mem_singleton]

/-- A title in quotes behind another one, and the same text as a tag. -/
theorem plain_value_shown_essay :
    let v := "Sets: 2".toList
    let w := "'Sets: 2'".toList
    let t := "---\ntitle: Draft\ntags: 'Sets: 2'\ntitle: 'Sets: 2'\n---\nBody".toList
    let item : Item := { name := "essay".toList, markdown := some t }
    IsPlainValue v ∧ HasLastEntry t "title".toList w ∧ HasLastEntry t "tags".toList w ∧
      (ofItem 0 item).title = v ∧ v ∈ (ofItem 0 item).tags := by
  intro v w t item
  have hv : IsPlainValue v := by decide
  have htext : IsTextValue v :=
    ⟨by decide, Option.isNone_iff_eq_none.1 (by decide +kernel), by decide⟩
  have hblock : frontBlock? t =
      some ("title: Draft\ntags: 'Sets: 2'\ntitle: 'Sets: 2'".toList, "Body".toList) := rfl
  have htitle : HasLastEntry t "title".toList w :=
    ⟨rfl, _, _, hblock, ["title: Draft".toList, "tags: 'Sets: 2'".toList], [], rfl,
      List.forall_mem_nil _⟩
  have htags : HasLastEntry t "tags".toList w := by
    have hline : entryOfLine? (entryText "title".toList w) = some ("title".toList, w) := rfl
    refine ⟨rfl, _, _, hblock, ["title: Draft".toList], [entryText "title".toList w], rfl, ?_⟩
    intro l hl raw hentry
    rw [List.mem_singleton.1 hl, ← entryOfLine?_eq_some_iff, hline] at hentry
    exact absurd (Prod.mk.inj (Option.some.inj hentry)).1 (by decide)
  have hitem : item.markdown = some t := rfl
  obtain ⟨hshown, -, -, htag, -, -⟩ := plain_value_shown hv (.inr (.inr rfl)) hitem 0
  exact ⟨hv, htitle, htags, (hshown htitle).trans (shownText_of_isTextValue htext),
    htag htags htext⟩

/-- An integer is not shown with its leading zeros, and is no tag. A line under the same key, or a
line at fault, takes the title away. -/
theorem plain_value_not_shown :
    let document (block : Text) : Document := ofItem 0
      { name := "essay".toList, markdown := some ("---\n".toList ++ block ++ "\n---\n".toList) }
    IsPlainValue "007".toList ∧ (document "title: 007".toList).title = "7".toList ∧
      (document "title: 007".toList).title ≠ "007".toList ∧
      IsPlainValue "2024".toList ∧ "2024".toList ∉ (document "tags: 2024".toList).tags ∧
      (document "title: a\ntitle: b".toList).title = "b".toList ∧
      (document "title: a\n: b".toList).title = "essay".toList := by
  intro document
  have hseven : (document "title: 007".toList).title = "7".toList := rfl
  have htags : (document "tags: 2024".toList).tags = [] := rfl
  refine ⟨by decide, hseven, ?_, by decide, ?_, rfl, rfl⟩
  · rw [hseven]
    decide
  · rw [htags]
    exact List.not_mem_nil

end Document

end DocumentSearch
