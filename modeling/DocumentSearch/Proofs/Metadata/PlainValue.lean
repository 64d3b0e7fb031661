import DocumentSearch.Proofs.Metadata.Entries

/-!
# Plain values

A plain value is one line of text without quotes, brackets and commas. Bare or in quotes, it is read
as an integer, a number, a truth value, or else as the text that it is, and what is read is shown as
text again. It is shown as it is written unless it spells an integer, a number or a truth value in
another way than the one in which these are shown.

Results:

* `Decimal.Notation.text_ne_nil`: every number is shown.
* `IsPlainValue.readValue_eq`: a plain value is read, bare or in quotes.
* `text?_scalarValue`: what is shown of it.
* `isTextValue_of_not_isNumeral`: what is no numeral and no truth value is read as a text.
* `shownText_eq_self_iff`: when it is shown as it is written.
-/

namespace DocumentSearch

open Text

variable {v w : Text}

/-! ## Numbers as text -/

namespace Decimal

theorem natText_ne_nil (n : Nat) : natText n ≠ [] := Nat.toDigits_ne_nil

theorem Notation.positionalText_ne_nil (n : Notation) {digits : Text} (h : digits ≠ [])
    (exponent : Int) :
    n.positionalText digits exponent ≠ [] := by
  rw [positionalText]
  split
  · rw [List.append_assoc]
    exact List.append_ne_nil_of_left_ne_nil h _
  · split
    · exact List.append_ne_nil_of_right_ne_nil _ (List.cons_ne_nil _ _)
    · exact List.append_ne_nil_of_left_ne_nil (List.cons_ne_nil _ _) _

theorem Notation.scaledText_ne_nil (n : Notation) (d : Scaled) : n.scaledText d ≠ [] := by
  rw [scaledText]
  split
  · exact n.positionalText_ne_nil (natText_ne_nil _) _
  · rw [scientificText]
    exact List.append_ne_nil_of_right_ne_nil _ (natText_ne_nil _)

/-- No number is written as nothing. -/
theorem Notation.text_ne_nil (n : Notation) (x : Float) : n.text x ≠ [] := by
  rw [text]
  split
  · exact List.cons_ne_nil _ _
  · dsimp only
    split
    · exact List.append_ne_nil_of_right_ne_nil _ (List.cons_ne_nil _ _)
    · split
      · exact List.append_ne_nil_of_right_ne_nil _
          (n.positionalText_ne_nil (List.cons_ne_nil _ _) _)
      · exact List.append_ne_nil_of_right_ne_nil _ (n.scaledText_ne_nil _)

end Decimal

theorem integerText_ne_nil (n : Int) : integerText n ≠ [] := by
  rw [integerText]
  split
  · exact List.cons_ne_nil _ _
  · exact Decimal.natText_ne_nil _

/-! ## What plain values are -/

/-- One line of text without quotes, brackets and commas, and without white space around it. -/
structure IsPlainValue (v : Text) : Prop extends IsListItem v where
  openBracket_notMem : '[' ∉ v
  closeBracket_notMem : ']' ∉ v

instance : DecidablePred IsPlainValue := fun v =>
  decidable_of_iff (IsListItem v ∧ '[' ∉ v ∧ ']' ∉ v)
    ⟨fun ⟨hitem, hopen, hclose⟩ => ⟨hitem, hopen, hclose⟩,
    fun h => ⟨h.toIsListItem, h.openBracket_notMem, h.closeBracket_notMem⟩⟩

/-- The value is written bare or between two quotes of one kind. -/
def IsWrittenAs (v w : Text) : Prop :=
  w = v ∨ w = '"' :: v ++ ['"'] ∨ w = '\'' :: v ++ ['\'']

theorem IsPlainValue.unquote_eq (h : IsPlainValue v) (hw : IsWrittenAs v w) : unquote w = v := by
  rcases hw with rfl | rfl | rfl
  · refine unquote_eq_self ?_
    rintro ⟨quote, hquote, inner, rfl⟩
    rcases List.mem_pair.1 hquote with rfl | rfl
    · exact h.doubleQuote_notMem List.mem_cons_self
    · exact h.singleQuote_notMem List.mem_cons_self
  · rw [unquote, betweenQuotes?_eq_some_iff.2 rfl]
  · have hdouble : betweenQuotes? '"' ('\'' :: v ++ ['\'']) = none := by
      rw [List.cons_append, betweenQuotes?, if_neg (by decide)]
    rw [unquote, hdouble, betweenQuotes?_eq_some_iff.2 rfl]
    rfl

/-- Under every key a plain value is read, and as what it spells. -/
theorem IsPlainValue.readValue_eq (h : IsPlainValue v) (hw : IsWrittenAs v w) (key : Text) :
    readValue key w = .ok (scalarValue v) := by
  rw [readValue, h.unquote_eq hw]
  split
  · exact absurd List.mem_cons_self h.openBracket_notMem
  · rfl

theorem IsPlainValue.trim_eq (h : IsPlainValue v) (hw : IsWrittenAs v w) : trim w = w := by
  have hquoted (quote : Char) (hquote : isWhiteSpace quote = false) :
      trim (quote :: v ++ [quote]) = quote :: v ++ [quote] := by
    refine trim_eq_self_iff.2 ⟨fun c hc => ?_, fun c hc => ?_⟩
    · cases hc
      exact hquote
    · rw [List.getLast?_concat] at hc
      cases hc
      exact hquote
  rcases hw with rfl | rfl | rfl
  · exact h.trimmed
  · exact hquoted '"' (by decide)
  · exact hquoted '\'' (by decide)

theorem IsWrittenAs.ne_nil (hw : IsWrittenAs v w) (h : v ≠ []) : w ≠ [] := by
  rcases hw with rfl | rfl | rfl
  · exact h
  · exact List.cons_ne_nil _ _
  · exact List.cons_ne_nil _ _

/-! ## What is shown of them -/

/-- What is shown of a value: the integer or the number that it spells in the notation of metadata,
a truth value in small letters, and every other value as it is. -/
def shownText (v : Text) : Text :=
  match readInteger? v with
  | some n => integerText n
  | none =>
    match readNumber? v with
    | some x => metadataNotation.text x
    | none =>
      match readBoolean? v with
      | some b => if b then "true".toList else "false".toList
      | none => v

theorem text?_scalarValue (v : Text) : (scalarValue v).text? = some (shownText v) := by
  rw [scalarValue, shownText]
  cases readInteger? v with
  | some n => rfl
  | none =>
    cases readNumber? v with
    | some x => rfl
    | none => cases readBoolean? v <;> rfl

theorem shownText_ne_nil (h : v ≠ []) : shownText v ≠ [] := by
  rw [shownText]
  cases readInteger? v with
  | some n => exact integerText_ne_nil n
  | none =>
    cases readNumber? v with
    | some x => exact metadataNotation.text_ne_nil x
    | none =>
      cases readBoolean? v with
      | some b => cases b <;> exact List.cons_ne_nil _ _
      | none => exact h

/-- The value spells no integer of 64 bits, no finite number and no truth value. -/
structure IsTextValue (v : Text) : Prop where
  readInteger?_eq : readInteger? v = none
  readNumber?_eq : readNumber? v = none
  readBoolean?_eq : readBoolean? v = none

theorem IsTextValue.scalarValue_eq (h : IsTextValue v) : scalarValue v = .text v := by
  rw [scalarValue, h.readInteger?_eq, h.readNumber?_eq, h.readBoolean?_eq]

/-! ## Numerals -/

/-- Digits with at most one point among them, and with at most one sign before them. -/
def IsNumeral (v : Text) : Prop :=
  ∃ sign ∈ [[], ['+'], ['-']], ∃ point ∈ [[], ['.']], ∃ whole fraction : Text,
    v = sign ++ (whole ++ point ++ fraction) ∧ whole ++ fraction ≠ [] ∧
      ∀ c ∈ whole ++ fraction, c.isDigit = true

theorem exists_splitSign_eq (t : Text) :
    ∃ sign ∈ [[], ['+'], ['-']], t = sign ++ (Decimal.splitSign t).2 := by
  unfold Decimal.splitSign
  split
  · exact ⟨['-'], by decide, rfl⟩
  · exact ⟨['+'], by decide, rfl⟩
  · exact ⟨[], by decide, rfl⟩

theorem isNumeral_of_readInteger? {n : Int} (h : readInteger? v = some n) : IsNumeral v := by
  rw [readInteger?] at h
  split at h
  · next hread =>
    obtain ⟨sign, hsign, hv⟩ := exists_splitSign_eq v
    obtain ⟨value, hvalue, -⟩ := Option.map_eq_some_iff.1 hread
    obtain ⟨digits, hdigits, -⟩ := Option.bind_eq_some_iff.1 hvalue
    have hdigits : Decimal.readNat? (Decimal.splitSign v).2 = some digits := hdigits
    obtain ⟨hne, hall, -⟩ := Decimal.readNat?_eq_some_iff.1 hdigits
    refine ⟨sign, hsign, [], by decide, (Decimal.splitSign v).2, [], ?_, ?_, ?_⟩
    · rwa [List.append_nil, List.append_nil]
    · rwa [List.append_nil]
    · rwa [List.append_nil]
  · cases h

theorem of_splitPoint?_eq_some {t whole fraction : Text}
    (h : Decimal.splitPoint? t = some (whole, fraction)) :
    (∃ point ∈ [[], ['.']], t = whole ++ point ++ fraction) ∧ whole ++ fraction ≠ [] ∧
      ∀ c ∈ whole ++ fraction, c.isDigit = true := by
  rw [Decimal.splitPoint?] at h
  generalize hparts : (splitOnce '.' t).getD (t, []) = parts at h
  obtain ⟨front, behind⟩ := parts
  dsimp only at h
  split at h
  · next hdigits =>
    obtain ⟨rfl, rfl⟩ := Prod.mk.inj (Option.some.inj h)
    rw [Bool.and_eq_true, ← List.all_append, List.all_eq_true, Bool.not_eq_true',
      List.isEmpty_eq_false_iff] at hdigits
    refine ⟨?_, hdigits.2, hdigits.1⟩
    cases hsplit : splitOnce '.' t with
    | none =>
      rw [hsplit] at hparts
      obtain ⟨rfl, rfl⟩ := Prod.mk.inj hparts
      exact ⟨[], by decide, by simp⟩
    | some parts =>
      rw [hsplit] at hparts
      obtain rfl := hparts
      exact ⟨['.'], by decide, by simp [(splitOnce_eq_some_iff.1 hsplit).1]⟩
  · cases h

theorem isNumeral_of_readNumber? {x : Float} (h : readNumber? v = some x) : IsNumeral v := by
  rw [readNumber?] at h
  split at h
  · cases h
  · split at h
    · next hread =>
      obtain ⟨sign, hsign, hv⟩ := exists_splitSign_eq v
      obtain ⟨⟨whole, fraction⟩, hsplit, -⟩ := Option.map_eq_some_iff.1 hread
      have hsplit : Decimal.splitPoint? (Decimal.splitSign v).2 = some (whole, fraction) := hsplit
      obtain ⟨⟨point, hpoint, hunsigned⟩, hdigits⟩ := of_splitPoint?_eq_some hsplit
      exact ⟨sign, hsign, point, hpoint, whole, fraction, by rw [← hunsigned, ← hv], hdigits⟩
    · cases h

/-- What is no numeral and no truth value is read as a text. -/
theorem isTextValue_of_not_isNumeral (h : ¬ IsNumeral v)
    (hboolean : v.map Char.toLower ∉ ["true".toList, "false".toList]) : IsTextValue v where
  readInteger?_eq :=
    Option.eq_none_iff_forall_ne_some.2 fun _ hn => h (isNumeral_of_readInteger? hn)
  readNumber?_eq :=
    Option.eq_none_iff_forall_ne_some.2 fun _ hx => h (isNumeral_of_readNumber? hx)
  readBoolean?_eq := by
    obtain ⟨htrue, hfalse⟩ := not_or.1 (mt List.mem_pair.2 hboolean)
    rw [readBoolean?, if_neg htrue, if_neg hfalse]

/-! ## Values shown as they are written -/

theorem shownText_of_isTextValue (h : IsTextValue v) : shownText v = v := by
  rw [shownText, h.readInteger?_eq, h.readNumber?_eq, h.readBoolean?_eq]

theorem shownText_integerText {n : Int} (h : -0x8000000000000000 ≤ n ∧ n ≤ 0x7FFFFFFFFFFFFFFF) :
    shownText (integerText n) = integerText n := by
  rw [shownText, readInteger?_integerText h]

theorem range_of_readInteger? {n : Int} (h : readInteger? v = some n) :
    -0x8000000000000000 ≤ n ∧ n ≤ 0x7FFFFFFFFFFFFFFF := by
  rw [readInteger?] at h
  split at h
  · split at h
    · next hrange =>
      rw [← Option.some.inj h]
      simpa using hrange
    · cases h
  · cases h

theorem shownText_truthValue (h : v ∈ ["true".toList, "false".toList]) : shownText v = v := by
  have hshown (b : Bool) : shownText (if b then "true".toList else "false".toList) =
      if b then "true".toList else "false".toList := by
    have hvalue := text?_scalarValue (if b then "true".toList else "false".toList)
    rw [scalarValue_boolean] at hvalue
    exact (Option.some.inj hvalue).symm
  rcases List.mem_pair.1 h with rfl | rfl
  · exact hshown true
  · exact hshown false

/-- The value is read as a text, or it is an integer, a number or a truth value in the notation in
which these are shown. -/
def KeepsForm (v : Text) : Prop :=
  IsTextValue v ∨
    (∃ n, (-0x8000000000000000 ≤ n ∧ n ≤ 0x7FFFFFFFFFFFFFFF) ∧ v = integerText n) ∨
    (∃ x, readInteger? v = none ∧ readNumber? v = some x ∧ v = metadataNotation.text x) ∨
    v ∈ ["true".toList, "false".toList]

theorem shownText_eq_self_iff : shownText v = v ↔ KeepsForm v := by
  constructor
  · intro h
    rw [shownText] at h
    cases hinteger : readInteger? v with
    | some n =>
      rw [hinteger] at h
      exact .inr (.inl ⟨n, range_of_readInteger? hinteger, h.symm⟩)
    | none =>
      rw [hinteger] at h
      cases hnumber : readNumber? v with
      | some x =>
        rw [hnumber] at h
        exact .inr (.inr (.inl ⟨x, hinteger, hnumber, h.symm⟩))
      | none =>
        rw [hnumber] at h
        cases hboolean : readBoolean? v with
        | some b =>
          rw [hboolean] at h
          refine .inr (.inr (.inr (List.mem_pair.2 ?_)))
          cases b
          · exact .inr h.symm
          · exact .inl h.symm
        | none => exact .inl ⟨hinteger, hnumber, hboolean⟩
  · rintro (h | ⟨n, hn, rfl⟩ | ⟨x, hinteger, hnumber, hv⟩ | h)
    · exact shownText_of_isTextValue h
    · exact shownText_integerText hn
    · rw [shownText, hinteger, hnumber]
      exact hv.symm
    · exact shownText_truthValue h

end DocumentSearch
