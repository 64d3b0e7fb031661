import DocumentSearch.Text.Occurrence
import Mathlib.Data.List.Forall2

/-!
# Scans

What a search from left to right finds, said without the search: behind every hit the next one is
the first that there is, and behind the last hit there is none. Such a scan is the only one of its
text. Since all occurrences of a needle are equally long, no choice of occurrences without overlap
has more of them than the scan, which takes the first one wherever it can.

Results:

* `scan_cuts`: the cuts of a text are its scan.
* `Scan.unique`: a text has one scan.
* `Scan.length_maximal`: a scan has as many hits as can stand side by side.
-/

namespace DocumentSearch.Text

/-- The text begins with a piece of which `P` holds. -/
def Begins (P : Text → Prop) (t : Text) : Prop := ∃ m rest, t = m ++ rest ∧ P m

/-- The hits of a scan of the text for pieces of which `P` holds, and what stands behind the last
hit. -/
inductive Scan (P : Text → Prop) : Text → List Hit → Text → Prop where
  | done {t : Text} (h : ∀ u v, t = u ++ v → ¬ Begins P v) : Scan P t [] t
  | found {gap found t rest : Text} {hits : List Hit} (hfound : P found)
      (hfirst : ∀ u v, gap ++ (found ++ t) = u ++ v → Begins P v → gap.length ≤ u.length)
      (tail : Scan P t hits rest) : Scan P (gap ++ (found ++ t)) (⟨gap, found⟩ :: hits) rest

/-- The text of the hits with their gaps. -/
def hitsText (hits : List Hit) : Text := hits.flatMap fun h => h.gap ++ h.found

/-- All pieces of which `P` holds have the same number of characters, and it is not zero. -/
structure IsUniform (P : Text → Prop) (n : Nat) : Prop where
  length_eq : ∀ m, P m → m.length = n
  pos : 0 < n

namespace Scan

variable {P : Text → Prop} {n : Nat} {t rest : Text} {hits : List Hit}

theorem eq_append (h : Scan P t hits rest) : t = hitsText hits ++ rest := by
  induction h with
  | done _ => rfl
  | found _ _ _ ih =>
    rw [ih]
    simp [hitsText]

theorem of_mem (h : Scan P t hits rest) : ∀ hit ∈ hits, P hit.found := by
  induction h with
  | done _ => simp
  | found hfound _ _ ih => exact List.forall_mem_cons.2 ⟨hfound, ih⟩

/-- Where there is a piece, there is a hit. -/
theorem hits_ne_nil (h : Scan P t hits rest) {u v : Text} (ht : t = u ++ v) (hv : Begins P v) :
    hits ≠ [] := by
  cases h with
  | done hnone => exact absurd hv (hnone u v ht)
  | found => simp

/-- A text has one scan. -/
theorem unique (hP : IsUniform P n) {rest' : Text} {hits' : List Hit} (h : Scan P t hits rest)
    (h' : Scan P t hits' rest') : hits = hits' ∧ rest = rest' := by
  induction h generalizing hits' rest' with
  | done hnone =>
    cases h' with
    | done _ => exact ⟨rfl, rfl⟩
    | @found gap found _ _ _ hfound _ _ => exact absurd ⟨found, _, rfl, hfound⟩ (hnone gap _ rfl)
  | @found gap found t rest hits hfound hfirst _ ih =>
    generalize hwhole : gap ++ (found ++ t) = whole at h'
    cases h' with
    | done hnone => exact absurd ⟨found, t, rfl, hfound⟩ (hnone gap _ hwhole.symm)
    | @found gap' found' t' rest' hits' hfound' hfirst' tail' =>
      have hle := hfirst gap' _ hwhole ⟨found', t', rfl, hfound'⟩
      have hge := hfirst' gap _ hwhole.symm ⟨found, t, rfl, hfound⟩
      obtain ⟨rfl, hrest⟩ := List.append_inj hwhole (Nat.le_antisymm hle hge)
      have hlength : found.length = found'.length := by
        rw [hP.length_eq _ hfound, hP.length_eq _ hfound']
      obtain ⟨rfl, rfl⟩ := List.append_inj hrest hlength
      obtain ⟨rfl, rfl⟩ := ih tail'
      exact ⟨rfl, rfl⟩

/-- A character in front with which no piece begins. -/
theorem addChar (h : Scan P t hits rest) {c : Char} (hc : ¬ Begins P (c :: t)) :
    Scan P (c :: t) ((Cuts.mk hits rest).addChar c).hits ((Cuts.mk hits rest).addChar c).rest := by
  cases h with
  | done hnone =>
    apply Scan.done
    intro u v huv
    rcases List.cons_eq_append_iff.1 huv with ⟨rfl, rfl⟩ | ⟨u, rfl, rfl⟩
    · exact hc
    · exact hnone u v rfl
  | @found gap found t _ hits hfound hfirst tail =>
    rw [← List.cons_append]
    refine Scan.found hfound (fun u v huv hv => ?_) tail
    rcases List.cons_eq_append_iff.1 huv with ⟨rfl, rfl⟩ | ⟨u, rfl, hrest⟩
    · exact absurd hv hc
    · exact Nat.succ_le_succ (hfirst u v hrest hv)

end Scan

/-! ## Pieces side by side -/

/-- The text has `n` pieces of which `P` holds, and no two of them overlap. -/
inductive Packing (P : Text → Prop) : Text → Nat → Prop where
  | none {t : Text} : Packing P t 0
  | next {gap found t : Text} {n : Nat} (hfound : P found) (tail : Packing P t n) :
      Packing P (gap ++ (found ++ t)) (n + 1)

namespace Packing

variable {P Q : Text → Prop} {t : Text} {k n : Nat}

theorem prepend (h : Packing P t k) (s : Text) : Packing P (s ++ t) k := by
  cases h with
  | none => exact .none
  | @next gap found t k hfound tail =>
    rw [← List.append_assoc]
    exact .next hfound tail

theorem mono (h : Packing P t k) (hPQ : ∀ m, P m → Q m) : Packing Q t k := by
  induction h with
  | none => exact .none
  | next hfound _ ih => exact .next (hPQ _ hfound) ih

theorem begins (h : Packing P t (k + 1)) : ∃ u v, t = u ++ v ∧ Begins P v := by
  cases h with
  | @next gap found t _ hfound tail => exact ⟨gap, found ++ t, rfl, found, t, rfl, hfound⟩

/-- If no piece begins before `gap` ends, then cutting off the gap and one piece costs one piece at
most: what the cut reaches into lies behind the gap, and only one piece fits there. -/
theorem of_append (hP : IsUniform P n) {gap found : Text} (hfound : P found)
    (hfirst : ∀ u v, gap ++ (found ++ t) = u ++ v → Begins P v → gap.length ≤ u.length)
    (h : Packing P (gap ++ (found ++ t)) (k + 1)) : Packing P t k := by
  generalize hwhole : gap ++ (found ++ t) = whole at h
  cases h with
  | @next gap' found' t' _ hfound' tail =>
    have hle : gap.length ≤ gap'.length :=
      hfirst gap' _ hwhole ⟨found', t', rfl, hfound'⟩
    have hfits : (gap ++ found).length ≤ (gap' ++ found').length := by
      rw [List.length_append, List.length_append, hP.length_eq _ hfound, hP.length_eq _ hfound']
      omega
    rw [← List.append_assoc, ← List.append_assoc] at hwhole
    obtain ⟨between, hbetween⟩ :=
      List.prefix_of_prefix_length_le ⟨t, hwhole⟩ ⟨t', rfl⟩ hfits
    have hrest : t = between ++ t' := by
      rw [← hbetween, List.append_assoc _ between] at hwhole
      exact List.append_cancel_left hwhole
    rw [hrest]
    exact tail.prepend between

end Packing

namespace Scan

variable {P Q : Text → Prop} {n : Nat} {t rest : Text} {hits : List Hit}

theorem packing (h : Scan P t hits rest) : Packing P t hits.length := by
  induction h with
  | done _ => exact .none
  | found hfound _ _ ih => exact .next hfound ih

/-- No choice of pieces side by side has more of them than the scan has hits. -/
theorem length_maximal (hP : IsUniform P n) (h : Scan P t hits rest) {k : Nat}
    (hk : Packing P t k) : k ≤ hits.length := by
  induction h generalizing k with
  | done hnone =>
    cases k with
    | zero => exact Nat.zero_le _
    | succ k =>
      obtain ⟨u, v, huv, hv⟩ := hk.begins
      exact absurd hv (hnone u v huv)
  | found hfound hfirst _ ih =>
    cases k with
    | zero => exact Nat.zero_le _
    | succ k => exact Nat.succ_le_succ (ih (hk.of_append hP hfound hfirst))

end Scan

/-! ## Cuts -/

/-- The piece is the needle, up to `same`. -/
def IsSame (same : Char → Char → Bool) (needle m : Text) : Prop :=
  List.Forall₂ (fun a b => same a b = true) needle m

theorem isUniform_isSame (same : Char → Char → Bool) {needle : Text} (hne : needle ≠ []) :
    IsUniform (IsSame same needle) needle.length :=
  ⟨fun _ h => h.length_eq.symm, List.length_pos_iff.2 hne⟩

theorem startsWith_iff {same : Char → Char → Bool} {needle t : Text} :
    startsWith same needle t = true ↔
      ∃ m rest, t = m ++ rest ∧ IsSame same needle m := by
  induction needle generalizing t with
  | nil => simp [startsWith, IsSame]
  | cons a needle ih =>
    cases t with
    | nil => simp [startsWith, IsSame]
    | cons b t =>
      rw [startsWith, Bool.and_eq_true, ih]
      constructor
      · rintro ⟨hab, m, rest, rfl, hm⟩
        exact ⟨b :: m, rest, rfl, .cons hab hm⟩
      · rintro ⟨m, rest, ht, hm⟩
        cases hm with
        | cons hab hm =>
          obtain ⟨rfl, rfl⟩ := List.cons.inj ht
          exact ⟨hab, _, rest, rfl, hm⟩

theorem isSame_beq_iff {needle m : Text} : IsSame (· == ·) needle m ↔ m = needle := by
  rw [IsSame]
  simp only [beq_iff_eq, List.forall₂_eq_eq_eq]
  exact eq_comm

theorem isSame_take {same : Char → Char → Bool} {needle t : Text}
    (h : startsWith same needle t = true) : IsSame same needle (t.take needle.length) := by
  obtain ⟨m, rest, rfl, hm⟩ := startsWith_iff.1 h
  rw [hm.length_eq, List.take_left]
  exact hm

/-- The cuts of a text are its scan. -/
theorem scan_cuts (same : Char → Char → Bool) {needle : Text} (hne : needle ≠ []) (t : Text) :
    Scan (IsSame same needle) t (cuts same needle t).hits (cuts same needle t).rest := by
  have hempty : needle.isEmpty = false := by simpa using hne
  induction t using cuts.induct same needle with
  | case1 =>
    rw [cuts]
    apply Scan.done
    rintro u v huv ⟨m, rest, rfl, hm⟩
    obtain ⟨-, hrest⟩ := List.append_eq_nil_iff.1 huv.symm
    obtain ⟨rfl, -⟩ := List.append_eq_nil_iff.1 hrest
    cases hm
    exact hne rfl
  | case2 c t h ih =>
    have hstarts : startsWith same needle (c :: t) = true := by simpa [hempty] using h
    obtain ⟨n, hn⟩ := Nat.exists_eq_succ_of_ne_zero (mt List.length_eq_zero_iff.1 hne)
    have hbehind : t.drop (needle.length - 1) = (c :: t).drop needle.length := by
      rw [hn]
      rfl
    rw [hbehind] at ih
    rw [cuts, if_pos h, hbehind]
    have hscan : Scan (IsSame same needle) ([] ++ _) _ _ :=
      Scan.found (isSame_take hstarts) (fun _ _ _ _ => Nat.zero_le _) ih
    rwa [List.nil_append, List.take_append_drop] at hscan
  | case3 c t h ih =>
    rw [cuts, if_neg h]
    refine ih.addChar fun hbegins => h ?_
    rw [hempty, Bool.not_false, Bool.true_and]
    exact startsWith_iff.2 hbegins

end DocumentSearch.Text
