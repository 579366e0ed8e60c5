import Codegen.Proofs.Import.Merge
import Codegen.Proofs.Text.Lines
import Mathlib.Data.List.Nodup

/-! Merged statements stand in the strict order of their modules, one for each module. Merging is by module
and in the order of arrival, so that what was merged before can be merged with what comes later, and
gives what merging all statements at once gives. -/
namespace Codegen

namespace Text

structure FirstOccurrences (all kept : List String) : Prop where
  distinct : kept.Nodup
  members : ∀ s, s ∈ kept ↔ s ∈ all
  ordered : kept.Pairwise (fun a b => all.idxOf a < all.idxOf b)

theorem firstsOccur (texts : List String) : FirstOccurrences texts texts.eraseDups := by
  refine ⟨firstsDistinct texts, fun _ => List.mem_eraseDups, ?_⟩
  induction texts using List.reverseRecOn with
  | nil => exact List.Pairwise.nil
  | append_singleton texts s ih =>
    have before {a : String} (known : a ∈ texts.eraseDups) :
        (texts ++ [s]).idxOf a = texts.idxOf a ∧ texts.idxOf a < texts.length := by
      have member := List.mem_eraseDups.mp known
      exact ⟨List.idxOf_append_of_mem member, List.idxOf_lt_length_of_mem member⟩
    have kept : texts.eraseDups.Pairwise (fun a b => (texts ++ [s]).idxOf a < (texts ++ [s]).idxOf b) := by
      refine ih.imp_of_mem fun first second order => ?_
      rw [(before first).1, (before second).1]
      exact order
    rw [firstsSnoc, extendOne]
    split
    · exact kept
    · rename_i fresh
      refine List.pairwise_append.mpr ⟨kept, List.pairwise_singleton _ _, fun a known b last => ?_⟩
      have absent : s ∉ texts := fun member => fresh (List.mem_eraseDups.mpr member)
      rw [List.mem_singleton.mp last, (before known).1, List.idxOf_append_of_notMem absent]
      exact Nat.lt_add_right _ (before known).2

theorem firstsTwice (texts : List String) : texts.eraseDups.eraseDups = texts.eraseDups := by
  have distinct := firstsDistinct texts
  generalize texts.eraseDups = kept at distinct
  induction kept using List.reverseRecOn with
  | nil => rfl
  | append_singleton kept s ih =>
    rw [List.nodup_append] at distinct
    have fresh : s ∉ kept := fun known => distinct.2.2 s known s (List.mem_singleton.mpr rfl) rfl
    rw [firstsSnoc, ih distinct.1, extendOne, if_neg fresh]

end Text

namespace Statement

structure Unites (own : List Statement) (s : Statement) : Prop where
  named : Text.FirstOccurrences (own.flatMap (·.named)) s.named
  types : Text.FirstOccurrences (own.flatMap (·.types)) s.types
  default : s.default = own.findSome? (·.default)
  namespaceAlias : s.namespaceAlias = own.findSome? (·.namespaceAlias)

theorem unitedUnites (statements : List Statement) (source : String) :
    Unites (statements.filter (·.source = source)) (united statements source) :=
  ⟨Text.firstsOccur _, Text.firstsOccur _, rfl, rfl⟩

theorem mergedSources (statements : List Statement) (source : String) :
    source ∈ (merge statements).map (·.source) ↔ source ∈ statements.map (·.source) := by
  simp only [List.mem_map (b := source), mergeMember]
  constructor
  · rintro ⟨s, ⟨member, _⟩, rfl⟩
    exact List.mem_map.mp member
  · intro occurs
    exact ⟨united statements source, ⟨List.mem_map.mpr occurs, rfl⟩, rfl⟩

theorem mergedSorted (statements : List Statement) :
    (merge statements).Pairwise (fun a b => a.source < b.source) := by
  have keyed : (statements.foldl gather Table.empty).values.map (·.source) =
      (statements.foldl gather Table.empty).keys := by
    refine Table.valuesKeyed fun source s found => ?_
    rw [gatheredFind] at found
    split at found
    · cases found
      rfl
    · cases found
  have distinct : ((statements.foldl gather Table.empty).values.map (·.source)).Nodup := by
    rw [keyed]
    exact (statements.foldl gather Table.empty).distinct
  exact Text.sortedApart distinct

theorem mergedNodup (statements : List Statement) : (merge statements).Nodup := by
  refine (mergedSorted statements).imp fun {a b} below => ?_
  rintro rfl
  exact String.lt_irrefl _ below

/- The sources and what is said about each of them decide what merging gives. -/
theorem mergeSame {first second : List Statement}
    (sources : ∀ source, source ∈ first.map (·.source) ↔ source ∈ second.map (·.source))
    (same : ∀ source, united first source = united second source) : merge first = merge second := by
  refine List.Perm.eq_of_pairwise (fun a b _ _ below above => absurd above (String.lt_asymm below))
    (mergedSorted first) (mergedSorted second) ?_
  refine (List.perm_ext_iff_of_nodup (mergedNodup first) (mergedNodup second)).mpr fun s => ?_
  rw [mergeMember, mergeMember, sources, same]

theorem mergedOwn {statements : List Statement} {source : String}
    (occurs : source ∈ statements.map (·.source)) :
    (merge statements).filter (·.source = source) = [united statements source] := by
  refine List.perm_singleton.mp ((List.perm_ext_iff_of_nodup ((mergedNodup statements).filter _)
    (List.nodup_singleton _)).mpr fun s => ?_)
  rw [List.mem_filter, mergeMember, decide_eq_true_eq, List.mem_singleton]
  constructor
  · rintro ⟨⟨_, merged⟩, rfl⟩
    exact merged
  · rintro rfl
    exact ⟨⟨occurs, rfl⟩, rfl⟩

theorem unitedMerged (statements : List Statement) (source : String) :
    united (merge statements) source = united statements source := by
  by_cases occurs : source ∈ statements.map (·.source)
  · simp only [united, mergedOwn occurs, List.flatMap_singleton, List.findSome?_singleton,
      Text.firstsTwice]
  · rw [unitedNone occurs, unitedNone fun merged => occurs ((mergedSources statements source).mp merged)]

/- Later statements are absorbed one by one, whatever the earlier ones were. -/
theorem unitedLater (earlier later : List Statement) (source : String) :
    united (earlier ++ later) source =
      (later.filter (·.source = source)).foldl absorb (united earlier source) := by
  induction later using List.reverseRecOn with
  | nil => rw [List.append_nil, List.filter_nil, List.foldl_nil]
  | append_singleton later next ih =>
    rw [← List.append_assoc, List.filter_append, List.foldl_append, ← ih]
    by_cases own : source = next.source
    · subst own
      rw [unitedSnoc]
      simp
    · rw [unitedOther _ own]
      simp [Ne.symm own]

theorem mergeFusion (earlier later : List Statement) :
    merge (merge earlier ++ later) = merge (earlier ++ later) := by
  refine mergeSame (fun source => ?_) (fun source => ?_)
  · rw [List.map_append, List.map_append, List.mem_append, List.mem_append, mergedSources]
  · rw [unitedLater, unitedLater, unitedMerged]

theorem statementsMerged (statements : List Statement) :
    (merge statements).Pairwise (fun a b => a.source < b.source) ∧
      (∀ source, source ∈ (merge statements).map (·.source) ↔ source ∈ statements.map (·.source)) ∧
      (∀ s ∈ merge statements, Unites (statements.filter (·.source = s.source)) s) ∧
      (∀ later, merge (merge statements ++ later) = merge (statements ++ later)) ∧
      merge (merge statements) = merge statements := by
  refine ⟨mergedSorted statements, mergedSources statements, fun s member => ?_,
    mergeFusion statements, ?_⟩
  · have merged := (mergeMember.mp member).2
    exact merged ▸ unitedUnites statements s.source
  · simpa using mergeFusion statements []

end Statement
end Codegen
