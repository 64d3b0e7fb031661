import DocumentSearch.Text.CharTable

/-!
# Laws of tables of characters

What two shifts have to do with each other is settled by their bounds, so closed facts about tables
compare shifts and no code points. Where a table moves a character to is known from the shifts that
its own shifts avoid.

Results:

* `Settles.isValidChar`, `Settles.moves_eq_false`: a table that avoids the stops moves characters to
  characters, and to none that a stop moves away.
* `shifted?_eq_some_of_moves`: a table with ascending shifts applies each of them.
-/

namespace DocumentSearch.Text

/-! ## Shifts -/

/-- The first code point that the shift moves to. -/
def Shift.imageFirst (s : Shift) : Nat := (s.first + s.distance).toNat

/-- The last code point that the shift moves to. -/
def Shift.imageLast (s : Shift) : Nat := (s.last + s.distance).toNat

/-- A reason for which `s` moves nothing to where `r` moves something away: the two lie apart, or
they take turns. -/
def Shift.avoids (s r : Shift) : Bool :=
  Nat.blt s.imageLast r.first || Nat.blt r.last s.imageFirst ||
    (s.first == s.last || s.step == 2) && r.step == 2 && (s.imageFirst + r.first) % 2 == 1

/-- The shift back to where the characters came from. -/
def Shift.reverse (s : Shift) : Shift := ⟨s.imageFirst, s.imageLast, s.step, -s.distance⟩

/-- The shift that moves one character only, and that nowhere. -/
def Shift.single (c : Char) : Shift := ⟨c.toNat, c.toNat, 1, 0⟩

/-- Are the two the same shift? -/
def Shift.same (s r : Shift) : Bool :=
  s.first == r.first && s.last == r.last && s.step == r.step && s.distance == r.distance

theorem Shift.eq_of_same {s r : Shift} (h : s.same r = true) : s = r := by
  obtain ⟨first, last, step, distance⟩ := s
  simp only [same, Bool.and_eq_true, beq_iff_eq] at h
  obtain ⟨⟨⟨rfl, rfl⟩, rfl⟩, rfl⟩ := h
  rfl

theorem Shift.moves_eq_true_iff {s : Shift} {n : Nat} :
    s.moves n = true ↔ s.first ≤ n ∧ n ≤ s.last ∧ (n - s.first) % s.step = 0 := by
  simp [moves, and_assoc]

theorem Shift.moves_eq_false_of_avoids {s r : Shift} (h : s.avoids r = true)
    (hfirst : 0 ≤ s.first + s.distance) {n : Nat} (hn : s.moves n = true) :
    r.moves (n + s.distance).toNat = false := by
  rw [Bool.eq_false_iff, Ne, moves_eq_true_iff]
  rintro ⟨hge, hle, hmod⟩
  obtain ⟨hge', hle', hmod'⟩ := moves_eq_true_iff.1 hn
  simp only [avoids, imageFirst, imageLast, Bool.or_eq_true, Bool.and_eq_true, Nat.blt_eq,
    beq_iff_eq] at h
  rcases h with (h | h) | ⟨⟨hs, hr⟩, hodd⟩
  · omega
  · omega
  · rw [hr] at hmod
    rcases hs with hs | hs
    · omega
    · rw [hs] at hmod'
      omega

theorem Shift.moves_reverse {s : Shift} (hfirst : 0 ≤ s.first + s.distance) {n : Nat}
    (hn : s.moves n = true) : s.reverse.moves (n + s.distance).toNat = true := by
  obtain ⟨hge, hle, hmod⟩ := moves_eq_true_iff.1 hn
  refine moves_eq_true_iff.2 ⟨?_, ?_, ?_⟩
  · simp only [reverse, imageFirst]
    omega
  · simp only [reverse, imageLast]
    omega
  · have : (n + s.distance).toNat - (s.first + s.distance).toNat = n - s.first := by omega
    simpa only [reverse, imageFirst, this] using hmod

/-! ## Where a table moves to -/

theorem shifted?_eq_none {shifts : List Shift} {n : Nat}
    (h : ∀ s ∈ shifts, s.moves n = false) : shifted? shifts n = none := by
  rw [Option.eq_none_iff_forall_not_mem]
  intro m hm
  obtain ⟨s, hs, hmoves, -⟩ := exists_of_shifted? hm
  rw [h s hs] at hmoves
  cases hmoves

theorem toNat_ofNat_of_isValidChar {n : Nat} (h : n.isValidChar) : (Char.ofNat n).toNat = n := by
  rw [Char.ofNat, dif_pos h]
  rfl

/-- The shift that would move the surrogates, which are no characters. -/
def surrogates : Shift := ⟨0xD800, 0xDFFF, 1, 0⟩

/-- The table moves code points to characters, and to none that a stop moves away. -/
structure Settles (shifts stops : List Shift) : Prop where
  surrogates_mem : surrogates ∈ stops
  avoids : ∀ s ∈ shifts,
    0 ≤ s.first + s.distance ∧ s.imageLast < 0x110000 ∧ stops.all s.avoids = true

namespace Settles

variable {shifts stops : List Shift} {n m : Nat}

theorem moves_eq_false (h : Settles shifts stops) (hm : shifted? shifts n = some m) {r : Shift}
    (hr : r ∈ stops) : r.moves m = false := by
  obtain ⟨s, hs, hmoves, rfl⟩ := exists_of_shifted? hm
  obtain ⟨hfirst, -, havoid⟩ := h.avoids s hs
  exact Shift.moves_eq_false_of_avoids (List.all_eq_true.1 havoid r hr) hfirst hmoves

theorem isValidChar (h : Settles shifts stops) (hm : shifted? shifts n = some m) :
    m.isValidChar := by
  have hsurrogate := h.moves_eq_false hm h.surrogates_mem
  obtain ⟨s, hs, hmoves, rfl⟩ := exists_of_shifted? hm
  have hlast := (h.avoids s hs).2.1
  have hle := (Shift.moves_eq_true_iff.1 hmoves).2.1
  rw [Bool.eq_false_iff, Ne, Shift.moves_eq_true_iff] at hsurrogate
  simp only [Shift.imageLast] at hlast
  simp only [surrogates, Nat.mod_one, and_true] at hsurrogate
  show _ < _ ∨ _ < _ ∧ _ < _
  omega

theorem toNat_ofNat (h : Settles shifts stops) (hm : shifted? shifts n = some m) :
    (Char.ofNat m).toNat = m := toNat_ofNat_of_isValidChar (h.isValidChar hm)

theorem ofNat_ne (h : Settles shifts stops) (hm : shifted? shifts n = some m) {c : Char}
    (hc : Shift.single c ∈ stops) : Char.ofNat m ≠ c := by
  rintro rfl
  have hmoves := h.moves_eq_false hm hc
  simp [Shift.single, Shift.moves, h.toNat_ofNat hm] at hmoves

theorem shifted?_eq_none (h : Settles shifts stops) (hm : shifted? shifts n = some m)
    {shifts' : List Shift} (hsub : shifts' ⊆ stops) : shifted? shifts' m = none :=
  Text.shifted?_eq_none fun _ hr => h.moves_eq_false hm (hsub hr)

end Settles

/-! ## Ascending tables -/

/-- Do the shifts begin at `n` or behind it, and each of them behind the one before? -/
def ascendingFrom (n : Nat) : List Shift → Bool
  | [] => true
  | s :: shifts => Nat.ble n s.first && Nat.ble s.first s.last && ascendingFrom (s.last + 1) shifts

theorem le_of_ascendingFrom {k n : Nat} {s : Shift} {shifts : List Shift}
    (h : ascendingFrom k shifts = true) (hs : s ∈ shifts) (hn : s.moves n = true) : k ≤ n := by
  induction shifts generalizing k with
  | nil => cases hs
  | cons r shifts ih =>
    simp only [ascendingFrom, Bool.and_eq_true, Nat.ble_eq] at h
    rcases List.mem_cons.1 hs with rfl | hs
    · have := (Shift.moves_eq_true_iff.1 hn).1
      omega
    · have := ih h.2 hs
      omega

/-- Every shift of an ascending table is applied. -/
theorem shifted?_eq_some_of_moves {k n : Nat} {s : Shift} {shifts : List Shift}
    (h : ascendingFrom k shifts = true) (hs : s ∈ shifts) (hn : s.moves n = true) :
    shifted? shifts n = some (n + s.distance).toNat := by
  induction shifts generalizing k with
  | nil => cases hs
  | cons r shifts ih =>
    simp only [ascendingFrom, Bool.and_eq_true] at h
    rcases List.mem_cons.1 hs with rfl | hs
    · have hle := (Shift.moves_eq_true_iff.1 hn).2.1
      rw [shifted?, List.find?_cons_of_pos (by simpa using hle)]
      dsimp only
      rw [if_pos hn]
    · have hlt : ¬ n ≤ r.last := Nat.not_le.2 (le_of_ascendingFrom h.2 hs hn)
      have := ih h.2 hs
      rwa [shifted?, List.find?_cons_of_neg (by simpa using hlt)]

end DocumentSearch.Text
