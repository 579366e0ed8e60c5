import Codegen.Graph
import Codegen.Proofs.Table
import Mathlib.Data.List.Nodup
import Mathlib.Data.List.Perm.Subperm

/-! The order in which a graph gives its keys. While keys are settled, no key is settled or ready twice,
and whatever a settled key waits for was settled before it. A traversal that succeeds therefore lists
every key of the graph once, each after its dependencies. -/
namespace Codegen.Graph

def Earlier (waiting : List Waiting) (done : List String) : Prop :=
  ∀ before key after, done = before ++ key :: after →
    ∀ entry ∈ waiting, entry.1 = key → entry.2 ⊆ before

structure Settling (waiting : List Waiting) (ready done : List String) : Prop where
  distinct : (done ++ ready).Nodup
  known : done ++ ready ⊆ waiting.map Prod.fst
  free : ∀ entry ∈ waiting, entry.1 ∈ ready → entry.2 ⊆ done
  earlier : Earlier waiting done

theorem releasedMember {waiting : List Waiting} {done : List String} {key found : String}
    (member : found ∈ released waiting done key) :
    ∃ entry ∈ waiting, entry.1 = found ∧ key ∈ entry.2 ∧ entry.2 ⊆ done := by
  simp only [released, List.mem_map, List.mem_filter, decide_eq_true_eq, List.all_eq_true] at member
  obtain ⟨entry, ⟨inside, waits, all⟩, same⟩ := member
  exact ⟨entry, inside, same, waits, all⟩

theorem releasedDistinct {waiting : List Waiting} (unique : (waiting.map Prod.fst).Nodup)
    (done : List String) (key : String) : (released waiting done key).Nodup :=
  unique.sublist (List.filter_sublist.map Prod.fst)

theorem earlierSnoc {waiting : List Waiting} {done : List String} {key : String}
    (earlier : Earlier waiting done)
    (free : ∀ entry ∈ waiting, entry.1 = key → entry.2 ⊆ done) :
    Earlier waiting (done ++ [key]) := by
  intro before found after split entry member same
  rcases List.eq_nil_or_concat after with rfl | ⟨init, last, rfl⟩
  · obtain ⟨front, back⟩ := List.append_inj' split rfl
    have equal : key = found := by simpa using back
    subst front equal
    exact free entry member same
  · have longer : done ++ [key] = (before ++ found :: init) ++ [last] := by simpa using split
    exact earlier before found init (List.append_inj' longer rfl).1 entry member same

theorem settledDependencies {waiting : List Waiting} {ready done : List String}
    (settling : Settling waiting ready done) {entry : Waiting} (member : entry ∈ waiting)
    (settled : entry.1 ∈ done ++ ready) : entry.2 ⊆ done := by
  rcases List.mem_append.mp settled with old | next
  · obtain ⟨before, after, split⟩ := List.append_of_mem old
    intro dependency waits
    rw [split]
    exact List.mem_append_left _ (settling.earlier before entry.1 after split entry member rfl waits)
  · exact settling.free entry member next

theorem settlingStep {waiting : List Waiting} {key : String} {rest done : List String}
    (unique : (waiting.map Prod.fst).Nodup) (settling : Settling waiting (key :: rest) done) :
    Settling waiting (rest ++ released waiting (done ++ [key]) key) (done ++ [key]) := by
  have assoc : (done ++ [key]) ++ (rest ++ released waiting (done ++ [key]) key) =
      (done ++ key :: rest) ++ released waiting (done ++ [key]) key := by simp
  have unsettled : key ∉ done := fun member =>
    (List.nodup_append.mp settling.distinct).2.2 key member key List.mem_cons_self rfl
  refine ⟨?_, ?_, ?_, ?_⟩
  · rw [assoc, List.nodup_append]
    refine ⟨settling.distinct, releasedDistinct unique _ _, ?_⟩
    intro old settled found member equal
    obtain ⟨entry, inside, same, waits, _⟩ := releasedMember member
    have before := settledDependencies settling inside (by rw [same, ← equal]; exact settled)
    exact unsettled (before waits)
  · rw [assoc]
    refine List.append_subset.mpr ⟨settling.known, ?_⟩
    intro found member
    obtain ⟨entry, inside, same, _⟩ := releasedMember member
    exact List.mem_map.mpr ⟨entry, inside, same⟩
  · intro entry member next
    rcases List.mem_append.mp next with old | new
    · exact fun _ waits => List.mem_append_left _
        (settling.free entry member (List.mem_cons_of_mem _ old) waits)
    · obtain ⟨other, inside, same, _, all⟩ := releasedMember new
      exact List.inj_on_of_nodup_map unique inside member same ▸ all
  · exact earlierSnoc settling.earlier fun entry member same =>
      settling.free entry member (by simp [same])

theorem settleSettling {waiting : List Waiting} (unique : (waiting.map Prod.fst).Nodup)
    (fuel : Nat) {ready done : List String} (settling : Settling waiting ready done) :
    ∃ left, Settling waiting left (settle waiting fuel ready done) := by
  induction fuel generalizing ready done with
  | zero => exact ⟨ready, settling⟩
  | succ fuel ih =>
    cases ready with
    | nil => exact ⟨[], settling⟩
    | cons key rest => exact ih (settlingStep unique settling)

theorem freeSettling {waiting : List Waiting} (unique : (waiting.map Prod.fst).Nodup) :
    Settling waiting ((waiting.filter (fun entry => entry.2.isEmpty)).map (·.1)) [] := by
  refine ⟨unique.sublist (List.filter_sublist.map Prod.fst), ?_, ?_, ?_⟩
  · exact (List.filter_sublist.map Prod.fst).subset
  · intro entry member free
    obtain ⟨other, inside, same⟩ := List.mem_map.mp free
    obtain ⟨known, empty⟩ := List.mem_filter.mp inside
    have equal := List.inj_on_of_nodup_map unique known member same
    subst equal
    simp [List.isEmpty_iff.mp empty]
  · intro before key after split
    simp at split

theorem waitingKeys (graph : Graph) : graph.waiting.map Prod.fst = graph.keys := by
  simp [waiting, keys, Table.keys]

theorem orderedSettling (graph : Graph) :
    ∃ left, Settling graph.waiting left graph.ordered := by
  have unique : (graph.waiting.map Prod.fst).Nodup := by
    rw [waitingKeys]; exact graph.nodes.distinct
  exact settleSettling unique _ (freeSettling unique)

theorem traversed {graph : Graph} {order : List String} (ok : graph.traverse = .ok order) :
    order = graph.ordered ∧ graph.keys.length ≤ order.length := by
  simp only [traverse] at ok
  split at ok
  · cases ok
  · rename_i enough
    cases ok
    exact ⟨rfl, Nat.le_of_not_lt enough⟩

theorem traversalRefused {graph : Graph} {e : Error} (failed : graph.traverse = .error e) :
    ∃ cycle, e = .cyclic cycle := by
  simp only [traverse] at failed
  split at failed
  · exact ⟨_, (Except.error.inj failed).symm⟩
  · cases failed

theorem traversedDistinct {graph : Graph} {order : List String}
    (ok : graph.traverse = .ok order) : order.Nodup := by
  obtain ⟨left, settling⟩ := orderedSettling graph
  rw [(traversed ok).1]
  exact (List.nodup_append.mp settling.distinct).1

theorem traversedKeys {graph : Graph} {order : List String} (ok : graph.traverse = .ok order) :
    order.Perm graph.keys := by
  obtain ⟨left, settling⟩ := orderedSettling graph
  have inside : order ⊆ graph.keys := by
    rw [(traversed ok).1, ← waitingKeys]
    exact (List.append_subset.mp settling.known).1
  exact (List.subperm_of_subset (traversedDistinct ok) inside).perm_of_length_le (traversed ok).2

theorem traversedEarlier {graph : Graph} {order : List String} (ok : graph.traverse = .ok order)
    {before after : List String} {key : String} (split : order = before ++ key :: after)
    {node : GraphNode} (found : graph.nodes.find? key = some node) {dependency : String}
    (needed : dependency ∈ node.dependencies) (known : dependency ∈ graph.keys) :
    dependency ∈ before := by
  obtain ⟨left, settling⟩ := orderedSettling graph
  rw [(traversed ok).1] at split
  have member : (key, node.dependencies.filter (· ∈ graph.keys)) ∈ graph.waiting :=
    List.mem_map.mpr ⟨(key, node), Table.findPresent.mp found, rfl⟩
  exact settling.earlier before key after split _ member rfl
    (List.mem_filter.mpr ⟨needed, by simpa using known⟩)

end Codegen.Graph
