import DocumentSearch.Metadata.Block
import DocumentSearch.Proofs.Text.Line
import DocumentSearch.Proofs.Text.WhiteSpace

/-!
# Values that are written and read

How a value of metadata is written behind its key, and that it is read back. Not every value can be
written: a number with a point may be read as another spelling of it, and a text is read as what it
spells.

Results:

* `unquote_eq_self`: only a text between two quotes of one kind loses them.
* `listItems_intercalate`: the items of a list with commas between them.
* `readInteger?_integerText`: an integer of 64 bits is read back.
* `MetadataValue.IsWritable.readValue_written`: so is every value that can be written.
* `MetadataValue.IsWritable.trimmed_and_lineFeed_notMem`: it is written in one line.
-/

namespace DocumentSearch

open Text

/-! ## Writing -/

/-- A value as it is written behind its key. -/
def MetadataValue.written : MetadataValue → Text
  | .list items => '[' :: [',', ' '].intercalate items ++ [']']
  | value => value.text?.getD []

@[simp] theorem MetadataValue.written_integer (n : Int) :
    (MetadataValue.integer n).written = integerText n := rfl

@[simp] theorem MetadataValue.written_boolean (b : Bool) :
    (MetadataValue.boolean b).written = if b then "true".toList else "false".toList := rfl

@[simp] theorem MetadataValue.written_text (t : Text) : (MetadataValue.text t).written = t := rfl

/-- Does the text stand between two quotes of one kind? -/
def IsQuoted (t : Text) : Prop := ∃ quote ∈ ['"', '\''], ∃ inner, t = quote :: inner ++ [quote]

/-- What stands in a list as an item. -/
structure IsListItem (item : Text) : Prop where
  ne_nil : item ≠ []
  trimmed : trim item = item
  comma_notMem : ',' ∉ item
  doubleQuote_notMem : '"' ∉ item
  singleQuote_notMem : '\'' ∉ item
  lineFeed_notMem : '\n' ∉ item

/-- What is read as a text, and as the text that it is. -/
structure IsPlainText (t : Text) : Prop where
  trimmed : trim t = t
  lineFeed_notMem : '\n' ∉ t
  not_isQuoted : ¬ IsQuoted t
  head?_ne : t.head? ≠ some '['
  readInteger?_eq : readInteger? t = none
  readNumber?_eq : readNumber? t = none
  readBoolean?_eq : readBoolean? t = none

/-- Can the value be written so that it is read back? -/
def MetadataValue.IsWritable : MetadataValue → Prop
  | .integer n => -0x8000000000000000 ≤ n ∧ n ≤ 0x7FFFFFFFFFFFFFFF
  | .boolean _ => True
  | .list items => ∀ item ∈ items, IsListItem item
  | .text t => IsPlainText t
  | .number _ => False

/-! ## Quotes and brackets -/

theorem betweenQuotes?_eq_some_iff {quote : Char} {t inner : Text} :
    betweenQuotes? quote t = some inner ↔ t = quote :: inner ++ [quote] := by
  cases t with
  | nil => simp [betweenQuotes?]
  | cons c t =>
    rw [betweenQuotes?]
    by_cases hc : c = quote
    · rw [if_pos hc, beforeSuffix?_eq_some_iff, List.cons_append, List.cons.injEq]
      exact ⟨fun h => ⟨hc, h⟩, And.right⟩
    · rw [if_neg hc, List.cons_append, List.cons.injEq]
      exact ⟨fun h => (by cases h), fun h => absurd h.1 hc⟩

instance : DecidablePred IsQuoted := fun t =>
  decidable_of_iff
    ((betweenQuotes? '"' t).isSome = true ∨ (betweenQuotes? '\'' t).isSome = true) (by
      simp [IsQuoted, Option.isSome_iff_exists, betweenQuotes?_eq_some_iff])

theorem unquote_eq_self {t : Text} (h : ¬ IsQuoted t) : unquote t = t := by
  have hnone {quote : Char} (hquote : quote ∈ ['"', '\'']) : betweenQuotes? quote t = none := by
    rw [Option.eq_none_iff_forall_ne_some]
    exact fun inner hinner => h ⟨quote, hquote, inner, betweenQuotes?_eq_some_iff.1 hinner⟩
  rw [unquote, hnone (by simp), hnone (by simp)]
  rfl

/-- A text that does not begin with a quote is not quoted. -/
theorem not_isQuoted_of_head? {t : Text} (h : t.head? ≠ some '"' ∧ t.head? ≠ some '\'') :
    ¬ IsQuoted t := by
  rintro ⟨quote, hquote, inner, rfl⟩
  rcases List.mem_pair.1 hquote with rfl | rfl
  · exact h.1 rfl
  · exact h.2 rfl

theorem readValue_eq_scalarValue {t : Text} (key : Text) (hquote : ¬ IsQuoted t)
    (hbracket : t.head? ≠ some '[') : readValue key t = .ok (scalarValue t) := by
  rw [readValue, unquote_eq_self hquote]
  split
  · next inner => exact absurd rfl hbracket
  · rfl

theorem readValue_brackets (key inner : Text) :
    readValue key ('[' :: inner ++ [']']) = .ok (.list (listItems inner)) := by
  have hquote : ¬ IsQuoted ('[' :: inner ++ [']']) := not_isQuoted_of_head? (by simp)
  rw [readValue, unquote_eq_self hquote]
  split
  · next inner' h =>
    rw [List.cons_append, List.cons.injEq] at h
    rw [← h.2, beforeSuffix?_eq_some_iff.2 rfl]
  · next h => exact absurd rfl (h _)

/-! ## Lists -/

/-- What is read between two commas. -/
def readItem (piece : Text) : Text := (trim piece).filter fun c => c != '\'' && c != '"'

theorem listItems_eq (t : Text) :
    listItems t = ((splitAll ',' t).map readItem).filter (!·.isEmpty) := rfl

theorem IsListItem.readItem_eq {item : Text} (h : IsListItem item) : readItem item = item := by
  rw [readItem, h.trimmed]
  refine List.filter_eq_self.2 fun c hc => ?_
  have hdouble : c ≠ '"' := fun he => h.doubleQuote_notMem (he ▸ hc)
  have hsingle : c ≠ '\'' := fun he => h.singleQuote_notMem (he ▸ hc)
  simp [hdouble, hsingle]

theorem IsListItem.readItem_blank_cons {item : Text} (h : IsListItem item) :
    readItem (' ' :: item) = item := by
  rw [readItem, trim_cons_of_isWhiteSpace (by decide)]
  exact h.readItem_eq

/-- The blank behind a comma goes with the item, from which it is trimmed. -/
theorem intercalate_comma_blank (item : Text) (items : List Text) :
    [',', ' '].intercalate (item :: items) =
      [','].intercalate (item :: items.map (' ' :: ·)) := by
  induction items generalizing item with
  | nil => simp
  | cons next items ih =>
    rw [List.intercalate_cons_cons, ih, List.map_cons, List.intercalate_cons_cons]
    cases items <;> simp [List.intercalate_cons_cons]

theorem listItems_intercalate {items : List Text} (h : ∀ item ∈ items, IsListItem item) :
    listItems ([',', ' '].intercalate items) = items := by
  cases items with
  | nil => rfl
  | cons item items =>
    obtain ⟨hitem, hitems⟩ := List.forall_mem_cons.1 h
    have hcomma : ∀ piece ∈ item :: items.map (' ' :: ·), ',' ∉ piece := by
      refine List.forall_mem_cons.2 ⟨hitem.comma_notMem, ?_⟩
      refine List.forall_mem_map.2 fun other hother => ?_
      simpa using (hitems other hother).comma_notMem
    have hrest : items.map (readItem ∘ (' ' :: ·)) = items :=
      (List.map_congr_left fun other hother => (hitems other hother).readItem_blank_cons).trans
        (List.map_id' items)
    rw [listItems_eq, intercalate_comma_blank, splitAll_intercalate (List.cons_ne_nil _ _) hcomma,
      List.map_cons, hitem.readItem_eq, List.map_map, hrest]
    exact List.filter_eq_self.2 fun other hother => by simpa using (h other hother).ne_nil

/-! ## Numbers and truth values -/

theorem isWhiteSpace_eq_false_of_isDigit {c : Char} (h : c.isDigit = true) :
    isWhiteSpace c = false := by
  have hdigits : "0123456789".toList.all (!isWhiteSpace ·) = true := by decide
  simpa using List.all_eq_true.1 hdigits c (Decimal.mem_digits_of_isDigit h)

theorem readInt?_integerText (n : Int) : Decimal.readInt? (integerText n) = some n := by
  rw [integerText]
  split
  · next hneg =>
    have hn : -(n.natAbs : Int) = n := by omega
    simp only [Decimal.readInt?, Decimal.splitSign, Decimal.readNat?_natText, if_true]
    exact congrArg some hn
  · next hpos =>
    have hn : (n.natAbs : Int) = n := by omega
    rw [Decimal.readInt?_natText, hn]

theorem readInteger?_integerText {n : Int}
    (h : -0x8000000000000000 ≤ n ∧ n ≤ 0x7FFFFFFFFFFFFFFF) :
    readInteger? (integerText n) = some n := by
  rw [readInteger?, readInt?_integerText]
  simp [h]

/-- A truth value has letters in it, so it is no number. -/
theorem scalarValue_boolean (b : Bool) :
    scalarValue (if b then "true".toList else "false".toList) = .boolean b := by
  have htrue : "true".toList.any isAlphabetic = true := by decide +kernel
  have hfalse : "false".toList.any isAlphabetic = true := by decide +kernel
  cases b
  · rw [if_neg Bool.false_ne_true, scalarValue, readNumber?, if_pos hfalse]
    rfl
  · rw [if_pos rfl, scalarValue, readNumber?, if_pos htrue]
    rfl

/-! ## Values -/

/-- A text that does not begin with a quote or a bracket is read as a scalar. -/
theorem readValue_of_head? {t : Text} (key : Text)
    (h : ∀ c ∈ t.head?, c ∉ ['"', '\'', '[']) : readValue key t = .ok (scalarValue t) := by
  have hhead {c : Char} (hc : c ∈ ['"', '\'', '[']) : t.head? ≠ some c := fun he => h c he hc
  exact readValue_eq_scalarValue key (not_isQuoted_of_head? ⟨hhead (by simp), hhead (by simp)⟩)
    (hhead (by simp))

theorem mem_integerText {n : Int} {c : Char} (hc : c ∈ integerText n) :
    c = '-' ∨ c.isDigit = true := by
  rw [integerText] at hc
  split at hc
  · exact (List.mem_cons.1 hc).imp_right Decimal.isDigit_of_mem_natText
  · exact .inr (Decimal.isDigit_of_mem_natText hc)

/-- Every value that can be written is read back, whatever its key. -/
theorem MetadataValue.IsWritable.readValue_written {value : MetadataValue} (h : value.IsWritable)
    (key : Text) : readValue key value.written = .ok value := by
  cases value with
  | integer n =>
    have hhead : ∀ c ∈ (integerText n).head?, c ∉ ['"', '\'', '['] := by
      intro c hc hmem
      rcases mem_integerText (List.mem_of_mem_head? hc) with rfl | hdigit
      · exact absurd hmem (by decide)
      · have hno : ['"', '\'', '['].all (!Char.isDigit ·) = true := by decide
        simpa [hdigit] using List.all_eq_true.1 hno c hmem
    rw [written_integer, readValue_of_head? key hhead, scalarValue, readInteger?_integerText h]
  | boolean b =>
    have hhead : ∀ c ∈ (if b then "true".toList else "false".toList).head?,
        c ∉ ['"', '\'', '['] := by
      intro c hc
      cases b <;> cases hc <;> decide
    rw [written_boolean, readValue_of_head? key hhead, scalarValue_boolean]
  | list items =>
    rw [written, readValue_brackets, listItems_intercalate h]
  | text t =>
    rw [written_text, readValue_eq_scalarValue key h.not_isQuoted h.head?_ne, scalarValue,
      h.readInteger?_eq, h.readNumber?_eq, h.readBoolean?_eq]
  | number x => exact h.elim

/-- What is written stands in one line, and no white space stands around it. -/
theorem MetadataValue.IsWritable.trimmed_and_lineFeed_notMem {value : MetadataValue}
    (h : value.IsWritable) : trim value.written = value.written ∧ '\n' ∉ value.written := by
  cases value with
  | integer n =>
    have hplain : ∀ c ∈ integerText n, isWhiteSpace c = false := by
      intro c hc
      rcases mem_integerText hc with rfl | hdigit
      · decide
      · exact isWhiteSpace_eq_false_of_isDigit hdigit
    exact ⟨trim_eq_self_of_forall hplain, fun hmem => absurd (hplain _ hmem) (by decide)⟩
  | boolean b => cases b <;> decide
  | list items =>
    have hends : trim (list items).written = (list items).written := by
      refine trim_eq_self_iff.2 ⟨fun c hc => ?_, fun c hc => ?_⟩
      · cases hc
        decide
      · rw [written, List.getLast?_concat] at hc
        cases hc
        decide
    refine ⟨hends, fun hmem => ?_⟩
    have hinner : '\n' ∈ [',', ' '].intercalate items := by simpa [written] using hmem
    rcases mem_of_mem_intercalate hinner with hbetween | ⟨item, hitem, hmem⟩
    · exact absurd hbetween (by decide)
    · exact (h item hitem).lineFeed_notMem hmem
  | text t => exact ⟨h.trimmed, h.lineFeed_notMem⟩
  | number x => exact h.elim

/-! ## Deciding what can be written -/

instance : DecidablePred IsListItem := fun item =>
  decidable_of_iff
    (item ≠ [] ∧ trim item = item ∧ ',' ∉ item ∧ '"' ∉ item ∧ '\'' ∉ item ∧ '\n' ∉ item)
    ⟨fun ⟨hne, htrim, hcomma, hdouble, hsingle, hline⟩ =>
      ⟨hne, htrim, hcomma, hdouble, hsingle, hline⟩,
    fun h => ⟨h.ne_nil, h.trimmed, h.comma_notMem, h.doubleQuote_notMem, h.singleQuote_notMem,
      h.lineFeed_notMem⟩⟩

instance : DecidablePred IsPlainText := fun t =>
  decidable_of_iff
    (trim t = t ∧ '\n' ∉ t ∧ ¬ IsQuoted t ∧ t.head? ≠ some '[' ∧ readInteger? t = none ∧
      (readNumber? t).isNone = true ∧ readBoolean? t = none)
    ⟨fun ⟨htrim, hline, hquote, hhead, hinteger, hnumber, hboolean⟩ =>
      ⟨htrim, hline, hquote, hhead, hinteger, Option.isNone_iff_eq_none.1 hnumber, hboolean⟩,
    fun h => ⟨h.trimmed, h.lineFeed_notMem, h.not_isQuoted, h.head?_ne, h.readInteger?_eq,
      Option.isNone_iff_eq_none.2 h.readNumber?_eq, h.readBoolean?_eq⟩⟩

instance : DecidablePred MetadataValue.IsWritable
  | .integer n =>
    inferInstanceAs (Decidable (-0x8000000000000000 ≤ n ∧ n ≤ 0x7FFFFFFFFFFFFFFF))
  | .boolean _ => inferInstanceAs (Decidable True)
  | .list items => inferInstanceAs (Decidable (∀ item ∈ items, IsListItem item))
  | .text t => inferInstanceAs (Decidable (IsPlainText t))
  | .number _ => inferInstanceAs (Decidable False)

end DocumentSearch
