import DocumentSearch.Proofs.Search.Evaluation

/-!
# Patterns read ahead

An evaluator that is made for a query reads the patterns of this query ahead and keeps what became
of each of them, also that it was refused. It may be asked about other queries, whose patterns it
then reads when they come up. No outcome depends on which patterns were read ahead.

Results:

* `Query.mem_patterns_iff`: the patterns of a query are those of all its leaves.
* `forQuery_reads_ahead`: what is read ahead, and that it changes no outcome.
-/

namespace DocumentSearch

open Text

namespace Query

/-- `part` is the query itself or stands somewhere below it. -/
inductive IsPartOf (part : Query) : Query → Prop
  | self : IsPartOf part part
  | field {name : Text} {inner : Query} : IsPartOf part inner → IsPartOf part (.field name inner)
  | group {inner : Query} : IsPartOf part inner → IsPartOf part (.group inner)
  | unary {op : Operator} {operand : Query} :
    IsPartOf part operand → IsPartOf part (.unary op operand)
  | left {op : Operator} {left right : Query} :
    IsPartOf part left → IsPartOf part (.binary op left right)
  | right {op : Operator} {left right : Query} :
    IsPartOf part right → IsPartOf part (.binary op left right)

variable {p : Text} {q : Query}

theorem isPartOf_of_mem_patterns (h : p ∈ q.patterns) : (wildcard p).IsPartOf q := by
  induction q with
  | term _ | phrase _ | fuzzy _ _ => cases h
  | wildcard pattern =>
    cases List.mem_singleton.1 h
    exact .self
  | field _ inner ih => exact .field (ih h)
  | group inner ih => exact .group (ih h)
  | unary _ operand ih => exact .unary (ih h)
  | binary _ left right ihLeft ihRight =>
    rcases List.mem_append.1 h with h | h
    · exact .left (ihLeft h)
    · exact .right (ihRight h)

theorem IsPartOf.mem_patterns (h : (wildcard p).IsPartOf q) : p ∈ q.patterns := by
  induction h with
  | self => exact List.mem_singleton_self p
  | field _ ih | group _ ih | unary _ ih => exact ih
  | left _ ih => exact List.mem_append_left _ ih
  | right _ ih => exact List.mem_append_right _ ih

theorem mem_patterns_iff : p ∈ q.patterns ↔ (wildcard p).IsPartOf q :=
  ⟨isPartOf_of_mem_patterns, IsPartOf.mem_patterns⟩

end Query

variable {α : Type} [Score α]

/-- Whatever patterns are refused, an evaluator made for a query holds every pattern of the query
once, each with its reading or the refusal, and no other pattern; and it gives every query the
outcome that an evaluator gives which read nothing ahead. -/
theorem forQuery_reads_ahead [PatternReader] (config : Config α) (q : Query) :
    let e := Evaluator.forQuery config q
    (e.compiled.map Prod.fst).Nodup ∧
    (∀ p reading, (p, reading) ∈ e.compiled ↔
      (Query.wildcard p).IsPartOf q ∧ reading = PatternReader.read? p) ∧
    ∀ (q' : Query) (d : Document),
      e.evaluate q' d = (⟨config, []⟩ : Evaluator α).evaluate q' d := by
  intro e
  have htable : e.compiled.IsTableOf q.patterns := Compiled.isTableOf_ofQuery q
  refine ⟨htable.nodup, fun p reading => ?_, fun q' d => Evaluator.evaluate_forQuery config q q' d⟩
  rw [htable.mem_iff, Query.mem_patterns_iff]

/-- A pattern that stands twice in a query is read once, and a refused one is kept as refused. -/
example :
    let _ : PatternReader :=
      { PatternReader.standard with
        read? := fun p => if p.length ≤ 3 then some (.compile p) else none }
    let short := Query.wildcard "re*".toList
    let q := (Query.binary .not short (.wildcard "react*".toList)).or (.field "tags".toList short)
    Compiled.ofQuery q =
      [("re*".toList, some (.compile "re*".toList)), ("react*".toList, none)] := by
  decide

end DocumentSearch
