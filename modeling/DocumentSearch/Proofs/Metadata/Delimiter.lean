import DocumentSearch.Proofs.Metadata.FrontMatter
import Mathlib.Order.Nat

/-!
# Delimited blocks

A text has a metadata block if it begins with a delimiter line `---`, and such a line stands again
behind a later line break. The end of the text may end this second line. Where several lines could
be the second one, the block is the shortest that is possible.

Results:

* `bodyHere?_eq_some_iff`: where a block can end.
* `splitBlock?_eq_some_iff`: the shortest block is taken.
* `frontBlock?_eq_some_iff`, `frontBlock?_eq_none_iff`: which texts have a block, and which block.
* `FrontMatter.ofText_of_isShortest`, `FrontMatter.ofText_of_forall_not_isSplit`: what is read from
  a text with a block, and from another one.
* `FrontMatter.ofText_delimited_iff`: the lines between two delimiter lines are the block, if there
  are any.
-/

namespace DocumentSearch

open Text

variable {t rest block body : Text}

/-! ## Line breaks and delimiter lines -/

/-- A line feed, and a carriage return with a line feed. -/
def lineBreaks : List Text := [['\n'], ['\r', '\n']]

theorem afterLineBreak?_eq_some_iff :
    afterLineBreak? t = some rest ↔ ∃ e ∈ lineBreaks, t = e ++ rest := by
  constructor
  · intro h
    unfold afterLineBreak? at h
    split at h
    · exact ⟨['\n'], List.mem_pair.2 (.inl rfl), by rw [Option.some.inj h]; rfl⟩
    · exact ⟨['\r', '\n'], List.mem_pair.2 (.inr rfl), by rw [Option.some.inj h]; rfl⟩
    · cases h
  · rintro ⟨e, he, rfl⟩
    rcases List.mem_pair.1 he with rfl | rfl <;> rfl

theorem length_pos_of_mem_lineBreaks {e : Text} (h : e ∈ lineBreaks) : 0 < e.length := by
  rcases List.mem_pair.1 h with rfl | rfl <;> decide

/-- A block can end here: the text begins with a line break and a delimiter line, and behind them
stands the body. The end of the text may end the delimiter line. -/
def EndsBlock (t body : Text) : Prop :=
  ∃ e₂ ∈ lineBreaks, ∃ e₃, (e₃ ∈ lineBreaks ∨ e₃ = [] ∧ body = []) ∧
    t = e₂ ++ "---".toList ++ e₃ ++ body

theorem EndsBlock.length_le (h : EndsBlock t body) : body.length + 4 ≤ t.length := by
  obtain ⟨e₂, he₂, e₃, -, rfl⟩ := h
  have hbreak := length_pos_of_mem_lineBreaks he₂
  have hhyphens : "---".toList.length = 3 := rfl
  simp only [List.length_append]
  omega

theorem bodyHere?_eq_some_iff : bodyHere? t = some body ↔ EndsBlock t body := by
  have hdelimiter (rest : Text) : (afterLineBreak? t).bind afterHyphens? = some rest ↔
      ∃ e₂ ∈ lineBreaks, t = e₂ ++ "---".toList ++ rest := by
    simp only [Option.bind_eq_some_iff, afterLineBreak?_eq_some_iff, afterHyphens?_eq_some_iff]
    constructor
    · rintro ⟨_, ⟨e₂, he₂, rfl⟩, rfl⟩
      exact ⟨e₂, he₂, (List.append_assoc _ _ _).symm⟩
    · rintro ⟨e₂, he₂, rfl⟩
      exact ⟨_, ⟨e₂, he₂, List.append_assoc _ _ _⟩, rfl⟩
  rw [bodyHere?]
  constructor
  · intro h
    split at h
    · cases h
    · next hrest =>
      obtain ⟨e₂, he₂, rfl⟩ := (hdelimiter _).1 hrest
      rw [← Option.some.inj h]
      exact ⟨e₂, he₂, [], .inr ⟨rfl, rfl⟩, (List.append_nil _).symm⟩
    · next hrest =>
      obtain ⟨e₂, he₂, rfl⟩ := (hdelimiter _).1 hrest
      obtain ⟨e₃, he₃, rfl⟩ := afterLineBreak?_eq_some_iff.1 h
      exact ⟨e₂, he₂, e₃, .inl he₃, (List.append_assoc _ _ _).symm⟩
  · rintro ⟨e₂, he₂, e₃, he₃, ht⟩
    rw [(hdelimiter (e₃ ++ body)).2 ⟨e₂, he₂, by rw [ht, List.append_assoc _ e₃]⟩]
    rcases he₃ with he₃ | ⟨rfl, rfl⟩
    · rcases List.mem_pair.1 he₃ with rfl | rfl <;> rfl
    · rfl

/-! ## The shortest block -/

/-- Of the blocks with the property, together with a body, this one is a shortest. -/
def IsShortest (p : Text → Text → Prop) (block body : Text) : Prop :=
  p block body ∧ ∀ block' body', p block' body' → block.length ≤ block'.length

theorem exists_isShortest {p : Text → Text → Prop} (h : p block body) :
    ∃ block body, IsShortest p block body := by
  classical
  have hlength : ∃ n, ∃ block body, p block body ∧ block.length = n := ⟨_, block, body, h, rfl⟩
  obtain ⟨shortest, rest, hshortest, heq⟩ := Nat.find_spec hlength
  refine ⟨shortest, rest, hshortest, fun block' body' h' => ?_⟩
  rw [heq]
  exact Nat.find_min' hlength ⟨block', body', h', rfl⟩

/-- The text begins with the block, which can end there. -/
def BeginsWithBlock (t block body : Text) : Prop := ∃ rest, t = block ++ rest ∧ EndsBlock rest body

theorem beginsWithBlock_cons_iff {c : Char} : BeginsWithBlock (c :: t) block body ↔
    block = [] ∧ EndsBlock (c :: t) body ∨
      ∃ block', block = c :: block' ∧ BeginsWithBlock t block' body := by
  cases block with
  | nil => simp [BeginsWithBlock]
  | cons d block =>
    simp only [BeginsWithBlock, List.cons_append, List.cons.injEq, reduceCtorEq, false_and,
      false_or]
    constructor
    · rintro ⟨rest, ⟨rfl, rfl⟩, hend⟩
      exact ⟨block, ⟨rfl, rfl⟩, rest, rfl, hend⟩
    · rintro ⟨_, ⟨rfl, rfl⟩, rest, rfl, hend⟩
      exact ⟨rest, ⟨rfl, rfl⟩, hend⟩

/-- Where a block can end at once, the empty one is the only shortest. -/
theorem isShortest_of_bodyHere?_eq_some {c : Char} {found : Text}
    (h : bodyHere? (c :: t) = some found) :
    IsShortest (BeginsWithBlock (c :: t)) block body ↔ block = [] ∧ body = found := by
  have hend := bodyHere?_eq_some_iff.1 h
  have hempty : BeginsWithBlock (c :: t) [] found := beginsWithBlock_cons_iff.2 (.inl ⟨rfl, hend⟩)
  constructor
  · rintro ⟨⟨rest, hrest, hbody⟩, hleast⟩
    obtain rfl := List.length_eq_zero_iff.1 (Nat.le_zero.1 (hleast [] found hempty))
    obtain rfl := hrest
    rw [← bodyHere?_eq_some_iff, h] at hbody
    exact ⟨rfl, (Option.some.inj hbody).symm⟩
  · rintro ⟨rfl, rfl⟩
    exact ⟨hempty, fun _ _ _ => Nat.zero_le _⟩

/-- Where no block can end, the first character belongs to every block. -/
theorem isShortest_of_bodyHere?_eq_none {c : Char} (h : bodyHere? (c :: t) = none) :
    IsShortest (BeginsWithBlock (c :: t)) block body ↔
      ∃ block', block = c :: block' ∧ IsShortest (BeginsWithBlock t) block' body := by
  have hcons (block body : Text) : BeginsWithBlock (c :: t) block body ↔
      ∃ block', block = c :: block' ∧ BeginsWithBlock t block' body := by
    rw [beginsWithBlock_cons_iff, ← bodyHere?_eq_some_iff, h]
    simp
  constructor
  · rintro ⟨hblock, hleast⟩
    obtain ⟨block', rfl, htail⟩ := (hcons _ _).1 hblock
    refine ⟨block', rfl, htail, fun other body' hother => ?_⟩
    exact Nat.le_of_succ_le_succ (hleast _ body' ((hcons _ _).2 ⟨other, rfl, hother⟩))
  · rintro ⟨block', rfl, hblock, hleast⟩
    refine ⟨(hcons _ _).2 ⟨block', rfl, hblock⟩, fun other body' hother => ?_⟩
    obtain ⟨other', rfl, htail⟩ := (hcons _ _).1 hother
    exact Nat.succ_le_succ (hleast other' body' htail)

theorem splitBlock?_eq_some_iff :
    splitBlock? t = some (block, body) ↔ IsShortest (BeginsWithBlock t) block body := by
  induction t generalizing block body with
  | nil =>
    refine iff_of_false (by simp [splitBlock?]) ?_
    rintro ⟨⟨rest, hnil, hend⟩, -⟩
    have hlength := hend.length_le
    rw [(List.nil_eq_append_iff.1 hnil).2, List.length_nil] at hlength
    omega
  | cons c t ih =>
    rw [splitBlock?]
    cases hhere : bodyHere? (c :: t) with
    | some found =>
      rw [isShortest_of_bodyHere?_eq_some hhere, Option.some.injEq, Prod.mk.injEq, eq_comm,
        @eq_comm _ found]
    | none =>
      simp only [isShortest_of_bodyHere?_eq_none hhere, Option.map_eq_some_iff, Prod.exists,
        Prod.mk.injEq, ih]
      constructor
      · rintro ⟨block', body', hblock, rfl, rfl⟩
        exact ⟨block', rfl, hblock⟩
      · rintro ⟨block', rfl, hblock⟩
        exact ⟨block', body, hblock, rfl, rfl⟩

/-! ## Texts with a block -/

/-- The block stands between two delimiter lines at the beginning of the text, the body behind
them. -/
def IsSplit (t block body : Text) : Prop :=
  ∃ e₁ ∈ lineBreaks, ∃ e₂ ∈ lineBreaks, ∃ e₃, (e₃ ∈ lineBreaks ∨ e₃ = [] ∧ body = []) ∧
    t = "---".toList ++ e₁ ++ block ++ e₂ ++ "---".toList ++ e₃ ++ body

theorem isSplit_iff : IsSplit t block body ↔
    ∃ rest, (afterHyphens? t).bind afterLineBreak? = some rest ∧
      BeginsWithBlock rest block body := by
  simp only [Option.bind_eq_some_iff, afterLineBreak?_eq_some_iff, afterHyphens?_eq_some_iff]
  constructor
  · rintro ⟨e₁, he₁, e₂, he₂, e₃, he₃, rfl⟩
    refine ⟨block ++ (e₂ ++ "---".toList ++ e₃ ++ body), ⟨_, ?_, e₁, he₁, rfl⟩, _, rfl,
      e₂, he₂, e₃, he₃, rfl⟩
    simp only [List.append_assoc]
    rfl
  · rintro ⟨_, ⟨_, rfl, e₁, he₁, rfl⟩, _, rfl, e₂, he₂, e₃, he₃, rfl⟩
    refine ⟨e₁, he₁, e₂, he₂, e₃, he₃, ?_⟩
    simp only [List.append_assoc]
    rfl

/-- The block of a text is the shortest one that stands between two delimiter lines. -/
theorem frontBlock?_eq_some_iff :
    frontBlock? t = some (block, body) ↔ IsShortest (IsSplit t) block body := by
  rw [frontBlock?]
  cases hopen : (afterHyphens? t).bind afterLineBreak? with
  | none =>
    have hsplit (block body : Text) : ¬ IsSplit t block body := by
      rw [isSplit_iff, hopen]
      simp
    exact iff_of_false (by simp) fun h => hsplit block body h.1
  | some rest =>
    have hsplit : IsSplit t = BeginsWithBlock rest := by
      ext block body
      rw [isSplit_iff, hopen]
      simp
    rw [Option.bind_some, splitBlock?_eq_some_iff, hsplit]

theorem frontBlock?_eq_none_iff :
    frontBlock? t = none ↔ ∀ block body, ¬ IsSplit t block body := by
  rw [Option.eq_none_iff_forall_ne_some]
  constructor
  · intro h block body hsplit
    obtain ⟨shortest, rest, hshortest⟩ := exists_isShortest hsplit
    exact h (shortest, rest) (frontBlock?_eq_some_iff.2 hshortest)
  · rintro h ⟨block, body⟩ hblock
    exact h block body (frontBlock?_eq_some_iff.1 hblock).1

namespace FrontMatter

/-- What is read from a block with a body behind it. -/
def ofBlock (block body : Text) : FrontMatter :=
  match readBlock block with
  | .ok metadata => ⟨metadata, body, none⟩
  | .error e => ⟨Metadata.empty, body, some e⟩

theorem body_ofBlock (block body : Text) : (ofBlock block body).body = body := by
  rw [ofBlock]
  split <;> rfl

theorem ofText_of_frontBlock? (h : frontBlock? t = some (block, body)) :
    ofText t = ofBlock block body := by
  rw [ofText, h]
  rfl

theorem ofText_of_isShortest (h : IsShortest (IsSplit t) block body) :
    ofText t = ofBlock block body :=
  ofText_of_frontBlock? (frontBlock?_eq_some_iff.2 h)

theorem ofText_of_forall_not_isSplit (h : ∀ block body, ¬ IsSplit t block body) :
    ofText t = ⟨Metadata.empty, t, none⟩ := by
  rw [ofText, frontBlock?_eq_none_iff.2 h]

/-! ## Lines between delimiter lines -/

/-- The lines between two delimiter lines, each with a line feed behind it, and the body. -/
def delimited (ls : List Text) (body : Text) : Text :=
  "---\n".toList ++ ls.flatMap (· ++ ['\n']) ++ "---\n".toList ++ body

/-- The line feed behind the last line stands before the delimiter line. -/
theorem flatMap_append_lineFeed {ls : List Text} (h : ls ≠ []) :
    ls.flatMap (· ++ ['\n']) = ['\n'].intercalate ls ++ ['\n'] := by
  induction ls with
  | nil => exact absurd rfl h
  | cons l ls ih =>
    cases ls with
    | nil => simp
    | cons next ls =>
      rw [List.flatMap_cons, ih (List.cons_ne_nil _ _), List.intercalate_cons_cons]
      simp only [List.append_assoc]

theorem frontBlock?_delimited {ls : List Text} (hne : ls ≠ [])
    (h : ∀ l ∈ ls, IsLine l ∧ l ≠ ['-', '-', '-']) (body : Text) :
    frontBlock? (delimited ls body) = some (['\n'].intercalate ls, body) := by
  have hwritten : delimited ls body =
      "---\n".toList ++ (['\n'].intercalate ls ++ ("\n---\n".toList ++ body)) := by
    rw [delimited, flatMap_append_lineFeed hne]
    simp only [List.append_assoc]
    rfl
  rw [hwritten]
  exact splitBlock?_intercalate h body

/-- If no line stands between them, the second delimiter line is read as a line of the block. -/
theorem frontBlock?_delimited_nil (body : Text) : frontBlock? (delimited [] body) =
    (splitBlock? ('\n' :: body)).map fun (block, rest) => ("---".toList ++ block, rest) := by
  have hline : IsLine "---".toList := ⟨by decide, by decide⟩
  exact splitBlock?_append_cons hline body

theorem body_ofText_delimited_nil_ne (body : Text) : (ofText (delimited [] body)).body ≠ body := by
  cases hblock : frontBlock? (delimited [] body) with
  | none =>
    have hwhole : (ofText (delimited [] body)).body = "---\n---\n".toList ++ body := by
      rw [ofText, hblock]
      rfl
    rw [hwhole]
    exact fun h => absurd (List.append_left_eq_self.1 h) (by decide)
  | some found =>
    obtain ⟨block, rest⟩ := found
    rw [ofText_of_frontBlock? hblock, body_ofBlock]
    rw [frontBlock?_delimited_nil, Option.map_eq_some_iff] at hblock
    obtain ⟨⟨block', rest'⟩, hsplit, hparts⟩ := hblock
    obtain ⟨-, rfl⟩ := Prod.mk.inj hparts
    obtain ⟨⟨tail, htail, hend⟩, -⟩ := splitBlock?_eq_some_iff.1 hsplit
    rintro rfl
    -- The delimiter that ends this block stands in the body.
    have hlength := congrArg List.length htail
    rw [List.length_cons, List.length_append] at hlength
    have hle := hend.length_le
    omega

/-- Lines between two delimiter lines are the block, and what is behind them is the body, if and
only if there are any lines. -/
theorem ofText_delimited_iff {ls : List Text}
    (h : ∀ l ∈ ls, '\n' ∉ l ∧ '\r' ∉ l ∧ l ≠ "---".toList) (body : Text) :
    ofText (delimited ls body) = ofBlock (['\n'].intercalate ls) body ↔ ls ≠ [] := by
  constructor
  · rintro hread rfl
    refine body_ofText_delimited_nil_ne body ?_
    rw [hread, body_ofBlock]
  · intro hne
    refine ofText_of_frontBlock? (frontBlock?_delimited hne (fun l hl => ?_) body)
    obtain ⟨hlineFeed, hreturn, hdelimiter⟩ := h l hl
    exact ⟨⟨hlineFeed, fun hlast => hreturn (List.mem_of_getLast? hlast)⟩, hdelimiter⟩

/-- Lines that begin with hyphens, and a delimiter line in the body. -/
theorem ofText_delimited_hyphens :
    let ls := ["".toList, "title: a".toList, "--- b".toList, "----".toList]
    (∀ l ∈ ls, '\n' ∉ l ∧ '\r' ∉ l ∧ l ≠ "---".toList) ∧
      (ofText (delimited ls "---\nc".toList) =
        ofBlock "\ntitle: a\n--- b\n----".toList "---\nc".toList ↔ ls ≠ []) := by
  intro ls
  have h : ∀ l ∈ ls, '\n' ∉ l ∧ '\r' ∉ l ∧ l ≠ "---".toList := by decide
  exact ⟨h, ofText_delimited_iff h _⟩

/-- Two delimiter lines without a line between them are the beginning of the body. -/
theorem ofText_delimited_without_lines :
    ofText "---\n---\nbody".toList = ⟨Metadata.empty, "---\n---\nbody".toList, none⟩ ∧
      (ofBlock [] "body".toList).body = "body".toList ∧
      ofText (delimited [] "body".toList) ≠ ofBlock (['\n'].intercalate []) "body".toList := by
  refine ⟨rfl, rfl, fun h => ?_⟩
  exact absurd (congrArg FrontMatter.body h) (by decide)

end FrontMatter

end DocumentSearch
