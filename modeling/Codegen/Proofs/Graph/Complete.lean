import Codegen.Proofs.Graph.Order

/-! Graphs that can be put in order are put in order. A key whose dependencies are settled is settled
itself or ready, so that along any order of the keys one after the other gets settled. -/
namespace Codegen.Graph

def Exhausted (waiting : List Waiting) (ready done : List String) : Prop :=
  ∀ entry ∈ waiting, entry.2 ⊆ done → entry.1 ∈ done ++ ready

theorem exhaustedFree (waiting : List Waiting) :
    Exhausted waiting ((waiting.filter (fun entry => entry.2.isEmpty)).map (·.1)) [] := by
  intro entry member free
  refine List.mem_map.mpr ⟨entry, List.mem_filter.mpr ⟨member, ?_⟩, rfl⟩
  rw [List.isEmpty_iff]
  exact List.subset_nil.mp free

theorem exhaustedStep {waiting : List Waiting} {key : String} {rest done : List String}
    (exhausted : Exhausted waiting (key :: rest) done) :
    Exhausted waiting (rest ++ released waiting (done ++ [key]) key) (done ++ [key]) := by
  intro entry member free
  by_cases waits : key ∈ entry.2
  · have found : entry.1 ∈ released waiting (done ++ [key]) key := by
      refine List.mem_map.mpr ⟨entry, List.mem_filter.mpr ⟨member, ?_⟩, rfl⟩
      simpa [waits] using fun d needed => by simpa using free needed
    simp [found]
  · have before : entry.2 ⊆ done := by
      intro d needed
      rcases List.mem_append.mp (free needed) with old | last
      · exact old
      · exact absurd (List.mem_singleton.mp last ▸ needed) waits
    have settled := exhausted entry member before
    simp only [List.mem_append, List.mem_cons] at settled ⊢
    tauto

theorem settleExhausted {waiting : List Waiting} (fuel : Nat) {ready done : List String}
    (exhausted : Exhausted waiting ready done) :
    (settle waiting fuel ready done).length = done.length + fuel ∨
      Exhausted waiting [] (settle waiting fuel ready done) := by
  induction fuel generalizing ready done with
  | zero => exact .inl (by simp [settle])
  | succ fuel ih =>
    cases ready with
    | nil => exact .inr (by simpa [settle] using exhausted)
    | cons key rest =>
      have next := ih (exhaustedStep exhausted)
      rwa [List.length_append, List.length_singleton, Nat.add_right_comm] at next

/- Along an order, each key finds what it waits for among the keys before it. -/
theorem settledAlong {waiting : List Waiting} {done order : List String}
    (exhausted : Exhausted waiting [] done) (earlier : Earlier waiting order)
    (closed : ∀ entry ∈ waiting, entry.2 ⊆ waiting.map Prod.fst) {before after : List String}
    (split : order = before ++ after) : ∀ entry ∈ waiting, entry.1 ∈ before → entry.1 ∈ done := by
  induction before using List.reverseRecOn generalizing after with
  | nil => exact fun _ _ inside => absurd inside List.not_mem_nil
  | append_singleton before key ih =>
    rw [List.append_assoc] at split
    have settled := ih split
    intro entry member inside
    rcases List.mem_append.mp inside with old | last
    · exact settled entry member old
    · have free : entry.2 ⊆ done := by
        intro d needed
        obtain ⟨other, known, rfl⟩ := List.mem_map.mp (closed entry member needed)
        exact settled other known
          (earlier before key after split entry member (List.mem_singleton.mp last) needed)
      simpa using exhausted entry member free

theorem traverseArranged {graph : Graph} (order : List String) (complete : graph.keys ⊆ order)
    (earlier : Earlier graph.waiting order) : graph.traverse = .ok graph.ordered := by
  have closed : ∀ entry ∈ graph.waiting, entry.2 ⊆ graph.waiting.map Prod.fst := by
    intro entry member d needed
    obtain ⟨original, _, rfl⟩ := List.mem_map.mp member
    rw [waitingKeys]
    simpa using (List.mem_filter.mp needed).2
  have enough : graph.keys.length ≤ graph.ordered.length := by
    rcases settleExhausted graph.waiting.length (exhaustedFree graph.waiting) with full | ended
    · rw [ordered, full, ← waitingKeys]
      simp
    · have settled := settledAlong ended earlier closed (List.append_nil order).symm
      refine (List.subperm_of_subset graph.nodes.distinct fun key known => ?_).length_le
      rw [← Table.keys, ← keys, ← waitingKeys] at known
      obtain ⟨entry, member, rfl⟩ := List.mem_map.mp known
      refine settled entry member (complete ?_)
      rw [← waitingKeys]
      exact List.mem_map.mpr ⟨entry, member, rfl⟩
  simp only [traverse, if_neg (Nat.not_lt.mpr enough)]

end Codegen.Graph
