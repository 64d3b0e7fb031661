import DocumentSearch.Proofs.Query.Lexeme
import DocumentSearch.Proofs.Query.Parser
import DocumentSearch.Proofs.Text.WhiteSpace

/-!
# Texts that spell queries

The tokenizer and the parser taken together: a text spells a query if its tokens do. Texts that
spell queries can be put in parentheses and joined by an operator, and the query that the whole
spells is made of those that the parts spell.

Results:

* `ofText_eq_ok_iff`: the queries that are read are those that texts spell, up to the greatest
  height.
* `Spells.combine`, `Spells.exclude`: how parts make a whole.
-/

namespace DocumentSearch

open Text

/-- The text spells the query. -/
def Spells (t : Text) (q : Query) : Prop := ∃ ts, Tokens t ts ∧ Derives .expression ts q

theorem ofText_eq_ok_iff {t : Text} {q : Query} :
    Query.ofText t = .ok q ↔ Spells t q ∧ q.height ≤ maxDepth := by
  constructor
  · intro h
    obtain ⟨ts, ht, h⟩ := bind_eq_ok_iff.1 h
    obtain ⟨hd, hle⟩ := derives_of_ofTokens_eq_ok h
    exact ⟨⟨ts, tokenize_eq_ok_iff.1 ht, hd⟩, hle⟩
  · rintro ⟨⟨ts, ht, hd⟩, hle⟩
    have := ofTokens_of_derives hd
    rw [if_pos hle] at this
    exact bind_eq_ok_iff.2 ⟨ts, tokenize_eq_ok_iff.2 ht, this⟩

theorem tokens_nil_of_blank {t : Text} (h : ∀ c ∈ t, isWhiteSpace c = true) : Tokens t [] := by
  induction t with
  | nil => exact .nil
  | cons c t ih =>
    exact .blank (h c List.mem_cons_self) (ih fun d hd => h d (List.mem_cons_of_mem c hd))

/-- A blank text is no query. -/
theorem trim_ne_nil_of_ofText_eq_ok {t : Text} {q : Query} (h : Query.ofText t = .ok q) :
    trim t ≠ [] := by
  intro hblank
  obtain ⟨⟨ts, ht, hd⟩, -⟩ := ofText_eq_ok_iff.1 h
  have hnil := tokenize_eq_ok_iff.2 (tokens_nil_of_blank (trim_eq_nil_iff.1 hblank))
  rw [tokenize_eq_ok_iff.2 ht] at hnil
  exact hd.ne_nil (Except.ok.inj hnil)

/-! ## Joining texts -/

/-- The token of an operator. -/
def Operator.token : Operator → Token
  | .and => .and
  | .or => .or
  | .not => .not

/-- Two texts in parentheses with an operator between them. -/
def Operator.combine (op : Operator) (a b : Text) : Text :=
  '(' :: (a ++ ')' :: ' ' :: (op.text ++ ' ' :: '(' :: (b ++ [')'])))

example : Operator.combine .and ['a'] ['b'] = "(a) AND (b)".toList := by decide

/-- The query that an operator between two groups makes of what stands in them. -/
def Operator.ofGroups (op : Operator) (p q : Query) : Query :=
  match op with
  | .and => p.group.and q.group
  | .or => p.group.or q.group
  | .not => p.group.and q.group.not

/-- A text in parentheses behind a `NOT`. -/
def exclude (a : Text) : Text := Operator.not.text ++ ' ' :: '(' :: (a ++ [')'])

theorem Tokens.group {t rest : Text} {ts us : List Token} (h : Tokens t ts) (h' : Tokens rest us) :
    Tokens ('(' :: (t ++ ')' :: rest)) (.openParen :: (ts ++ .closeParen :: us)) :=
  (h.append isBreak_closeParen h'.closeParen).openParen

theorem Tokens.operator (op : Operator) {rest : Text} {us : List Token} (h : Tokens rest us) :
    Tokens (op.text ++ ' ' :: rest) (op.token :: us) := by
  have hends : op.text.all (!endsRun ·) = true := by cases op <;> decide
  have hrun : Lexeme op.text (' ' :: rest) [classify op.text] := by
    refine .run ?_ ?_ ?_ (.inr ?_)
    · cases op <;> decide
    · simpa using hends
    · simp; decide
    · simp
  have hclass : classify op.text = op.token := by cases op <;> rfl
  rw [hclass] at hrun
  exact .cons hrun (.blank (by decide) h)

namespace Spells

variable {a b : Text} {p q : Query}

theorem combine (ha : Spells a p) (hb : Spells b q) (op : Operator) :
    Spells (op.combine a b) (op.ofGroups p q) := by
  obtain ⟨ts, hts, hp⟩ := ha
  obtain ⟨us, hus, hq⟩ := hb
  refine ⟨_, hts.group (.blank (by decide) (.operator op (hus.group .nil))), ?_⟩
  have left : Derives .term (.openParen :: (ts ++ [.closeParen])) p.group := .group hp
  have right : Derives .term (.openParen :: (us ++ [.closeParen])) q.group := .group hq
  cases op with
  | and =>
    have := Derives.expression left (.and right .done)
    simpa [Operator.token, Operator.ofGroups] using this
  | or =>
    have := Derives.expression left (.or right .done)
    simpa [Operator.token, Operator.ofGroups] using this
  | not =>
    have := Derives.expression left (.andNot right .done)
    simpa [Operator.token, Operator.ofGroups] using this

theorem exclude (ha : Spells a p) : Spells (exclude a) p.group.not := by
  obtain ⟨ts, hts, hp⟩ := ha
  refine ⟨_, .operator .not (hts.group .nil), ?_⟩
  have right : Derives .term (.openParen :: (ts ++ [.closeParen])) p.group := .group hp
  simpa [Operator.token] using Derives.expression (.negation right) .done

end Spells

end DocumentSearch
