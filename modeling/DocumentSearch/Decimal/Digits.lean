import DocumentSearch.Text.Basic

/-!
# Natural numbers in decimal

The decimal digits of a natural number and their value. Only the ten ASCII digits are digits.

Results:

* `mem_digits_of_isDigit`: which characters are digits.
* `readNat?_eq_some_iff`: which texts are read.
* `readNat?_natText`: a number that was written is read back.
-/

namespace DocumentSearch.Decimal

/-- The digits of a number, without leading zeros. -/
def natText (n : Nat) : Text := Nat.toDigits 10 n

/-- The value of a list of digits. -/
def digitsValue (digits : Text) : Nat :=
  digits.foldl (fun n c => 10 * n + (c.toNat - '0'.toNat)) 0

/-- The number that a text of one or more digits stands for. -/
def readNat? (t : Text) : Option Nat :=
  if !t.isEmpty && t.all Char.isDigit then some (digitsValue t) else none

theorem mem_digits_of_isDigit {c : Char} (h : c.isDigit = true) : c ∈ "0123456789".toList := by
  have hc : c.toNat ∈ List.range' 48 10 := by
    simp only [Char.isDigit, Bool.and_eq_true, decide_eq_true_eq, UInt32.le_iff_toNat_le] at h
    rw [List.mem_range'_1]
    exact ⟨h.1, Nat.lt_succ_of_le h.2⟩
  have hdigits : (List.range' 48 10).map Char.ofNat = "0123456789".toList := by decide
  rw [← hdigits, ← Char.ofNat_toNat c]
  exact List.mem_map_of_mem hc

theorem readNat?_eq_some_iff {t : Text} {n : Nat} : readNat? t = some n ↔
    t ≠ [] ∧ (∀ c ∈ t, c.isDigit = true) ∧ digitsValue t = n := by
  have hdigits : (!t.isEmpty && t.all Char.isDigit) = true ↔
      t ≠ [] ∧ ∀ c ∈ t, c.isDigit = true := by
    rw [Bool.and_eq_true, List.all_eq_true, Bool.not_eq_true', List.isEmpty_eq_false_iff]
  rw [readNat?]
  split
  · next h =>
    obtain ⟨hne, hall⟩ := hdigits.1 h
    rw [Option.some.injEq]
    exact ⟨fun he => ⟨hne, hall, he⟩, fun he => he.2.2⟩
  · next h => exact iff_of_false (by simp) fun he => h (hdigits.2 ⟨he.1, he.2.1⟩)

theorem isDigit_of_mem_natText {n : Nat} {c : Char} (h : c ∈ natText n) : c.isDigit = true :=
  Nat.isDigit_of_mem_toDigits (by decide) (by decide) h

theorem digitsValue_natText (n : Nat) : digitsValue (natText n) = n :=
  Nat.ofDigitChars_toDigits (by decide) (by decide)

@[simp] theorem readNat?_natText (n : Nat) : readNat? (natText n) = some n := by
  have hdigits : (natText n).all Char.isDigit = true :=
    List.all_eq_true.2 fun _ => isDigit_of_mem_natText
  have hne : natText n ≠ [] := Nat.toDigits_ne_nil
  simp [readNat?, digitsValue_natText, hdigits, hne]

end DocumentSearch.Decimal
