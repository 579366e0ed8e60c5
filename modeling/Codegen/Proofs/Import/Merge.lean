import Codegen.Import
import Codegen.Proofs.Table

/-! Merging the statements of each module. A merged statement holds every name of its module once, at the
place of its first occurrence, and the first default and namespace that were given. -/
namespace Codegen.Statement

def united (statements : List Statement) (source : String) : Statement :=
  let own := statements.filter (·.source = source)
  { source := source
    named := (own.flatMap (·.named)).eraseDups
    types := (own.flatMap (·.types)).eraseDups
    default := own.findSome? (·.default)
    namespaceAlias := own.findSome? (·.namespaceAlias) }

theorem unitedSnoc (statements : List Statement) (next : Statement) :
    united (statements ++ [next]) next.source = (united statements next.source).absorb next := by
  simp [united, absorb, List.filter_append, Text.firstsAppend, List.findSome?_append]

theorem unitedOther (statements : List Statement) {next : Statement} {source : String}
    (other : source ≠ next.source) :
    united (statements ++ [next]) source = united statements source := by
  simp [united, List.filter_append, other.symm]

theorem unitedNone {statements : List Statement} {source : String}
    (absent : source ∉ statements.map (·.source)) :
    united statements source = { source := source } := by
  have none : statements.filter (·.source = source) = [] := by
    rw [List.filter_eq_nil_iff]
    intro s member same
    exact absent (List.mem_map.mpr ⟨s, member, of_decide_eq_true same⟩)
  simp [united, none]

theorem gatheredFind (statements : List Statement) (source : String) :
    (statements.foldl gather Table.empty).find? source =
      if source ∈ statements.map (·.source) then some (united statements source) else none := by
  induction statements using List.reverseRecOn generalizing source with
  | nil => rfl
  | append_singleton statements next ih =>
    rw [List.foldl_append, List.foldl_cons, List.foldl_nil, gather, Table.findPut]
    have known : ((statements.foldl gather Table.empty).find? next.source).getD
        { source := next.source } = united statements next.source := by
      rw [ih]
      split
      · rfl
      · rename_i absent
        rw [unitedNone absent]
        rfl
    by_cases same : source = next.source
    · subst same
      simp [known, unitedSnoc]
    · simp [same, ih, unitedOther statements same]

theorem mergeMember {statements : List Statement} {s : Statement} :
    s ∈ merge statements ↔
      s.source ∈ statements.map (·.source) ∧ s = united statements s.source := by
  rw [merge, List.mem_mergeSort, Table.valuesMember]
  simp only [gatheredFind]
  constructor
  · intro held
    obtain ⟨source, found⟩ := held
    split at found
    · rename_i member
      cases found
      exact ⟨member, rfl⟩
    · cases found
  · intro merged
    obtain ⟨member, equal⟩ := merged
    exact ⟨s.source, by rw [if_pos member, ← equal]⟩

theorem mergeOne {statements : List Statement} {s : Statement}
    (gathered : (statements.foldl gather Table.empty).values = [s]) : merge statements = [s] := by
  rw [merge, gathered, List.mergeSort_singleton]

end Codegen.Statement
