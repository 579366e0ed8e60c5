import Codegen.Proofs.Graph.Search

/-! Graphs that are built up key by key. Keys may come again, with more dependencies and another label, and
a dependency on a key that never comes does not count. A traversal gives an order exactly if no key needs
itself in the end, and otherwise the labels of keys that need each other in a circle. -/
namespace Codegen.Graph

structure Addition where
  key : String
  label : String
  dependencies : List String
  deriving DecidableEq, Repr

def build (additions : List Addition) : Graph :=
  additions.foldl (fun graph a => graph.add a.key a.label a.dependencies) {}

def Declares (additions : List Addition) (key dependency : String) : Prop :=
  ∃ a ∈ additions, a.key = key ∧ dependency ∈ a.dependencies

def Needs (additions : List Addition) (key dependency : String) : Prop :=
  Declares additions key dependency ∧ dependency ∈ additions.map Addition.key

def Acyclic (additions : List Addition) : Prop :=
  ∀ key, ¬Relation.TransGen (Needs additions) key key

def Labelled (additions : List Addition) (key label : String) : Prop :=
  ∃ before dependencies after, additions = before ++ ⟨key, label, dependencies⟩ :: after ∧
    key ∉ after.map Addition.key

structure Ordered (additions : List Addition) (order : List String) : Prop where
  keys : order.Perm (additions.map Addition.key).eraseDups
  earlier : ∀ before key after, order = before ++ key :: after →
    ∀ dependency, Needs additions key dependency → dependency ∈ before

section Build

variable {additions : List Addition} {key dependency : String}

theorem buildSnoc (additions : List Addition) (a : Addition) :
    build (additions ++ [a]) = (build additions).add a.key a.label a.dependencies := by
  rw [build, List.foldl_append]
  rfl

theorem buildKeys (additions : List Addition) :
    (build additions).keys = (additions.map Addition.key).eraseDups := by
  induction additions using List.reverseRecOn with
  | nil => rfl
  | append_singleton additions a ih =>
    rw [buildSnoc, List.map_append, List.map_singleton, Text.firstsSnoc, ← ih, Text.extendOne]
    exact Table.keysPut _ _ _

theorem keyAdded : key ∈ (build additions).keys ↔ key ∈ additions.map Addition.key := by
  rw [buildKeys, List.mem_eraseDups]

theorem addFind (graph : Graph) (a : Addition) (key : String) :
    (graph.add a.key a.label a.dependencies).nodes.find? key =
      if key = a.key then
        some ⟨a.label, Text.extend (((graph.nodes.find? key).map (·.dependencies)).getD []) a.dependencies⟩
      else graph.nodes.find? key := by
  rw [add, Table.findPut]
  split
  · rename_i same
    rw [same]
  · rfl

theorem declaredFound : Declares additions key dependency ↔
    dependency ∈ (((build additions).nodes.find? key).map (·.dependencies)).getD [] := by
  induction additions using List.reverseRecOn with
  | nil => exact iff_of_false (fun ⟨_, member, _⟩ => by cases member) List.not_mem_nil
  | append_singleton additions a ih =>
    have snoc : Declares (additions ++ [a]) key dependency ↔
        Declares additions key dependency ∨ a.key = key ∧ dependency ∈ a.dependencies := by
      simp [Declares, or_and_right, exists_or]
    rw [snoc, ih, buildSnoc, addFind]
    split
    · rename_i same
      simp [Text.memExtend, same]
    · rename_i other
      simp [Ne.symm other]

theorem labelFound (added : key ∈ additions.map Addition.key) :
    Labelled additions key ((build additions).labelOf key) := by
  induction additions using List.reverseRecOn with
  | nil => cases added
  | append_singleton additions a ih =>
    rw [labelOf, buildSnoc, addFind]
    split
    · rename_i same
      subst same
      exact ⟨additions, a.dependencies, [], rfl, List.not_mem_nil⟩
    · rename_i other
      have before : key ∈ additions.map Addition.key := by simpa [other] using added
      obtain ⟨sooner, dependencies, later, split, last⟩ := ih before
      refine ⟨sooner, dependencies, later ++ [a], ?_, ?_⟩
      · conv_lhs => rw [split]
        rw [List.append_assoc]
        rfl
      · simp only [List.map_append, List.mem_append, not_or]
        exact ⟨last, by simpa using other⟩

theorem waitingNeeds {deps : List String} (member : (key, deps) ∈ (build additions).waiting) :
    dependency ∈ deps ↔ Needs additions key dependency := by
  obtain ⟨⟨_, node⟩, inside, same⟩ := List.mem_map.mp member
  cases same
  rw [List.mem_filter, decide_eq_true_eq, keyAdded, Needs, declaredFound,
    Table.findPresent.mpr inside, Option.map_some, Option.getD_some]

end Build

section Traverse

variable {additions : List Addition} {order : List String}

theorem traversedOrdered (ok : (build additions).traverse = .ok order) : Ordered additions order := by
  refine ⟨buildKeys additions ▸ traversedKeys ok, fun before key after split dependency needs => ?_⟩
  obtain ⟨declared, added⟩ := needs
  rw [declaredFound] at declared
  cases found : (build additions).nodes.find? key with
  | none => simp [found] at declared
  | some node =>
    rw [found] at declared
    exact traversedEarlier ok split found declared (keyAdded.mpr added)

/- What a key needs, at however many removes, stands before it; but no key stands before itself. -/
theorem orderedAcyclic (distinct : order.Nodup) (ordered : Ordered additions order) : Acyclic additions := by
  have earlier : ∀ {key last}, Relation.TransGen (Needs additions) key last →
      ∀ before after, order = before ++ key :: after → last ∈ before := by
    intro key last needs
    induction needs using Relation.TransGen.head_induction_on with
    | single step => exact fun before after split => ordered.earlier before _ after split _ step
    | head step _ ih =>
      intro before after split
      obtain ⟨sooner, later, inner⟩ :=
        List.append_of_mem (ordered.earlier before _ after split _ step)
      rw [inner, List.append_assoc] at split
      rw [inner]
      exact List.mem_append_left _ (ih sooner _ split)
  intro key circle
  have added : key ∈ order := by
    obtain ⟨_, _, last⟩ := Relation.TransGen.tail'_iff.mp circle
    exact ordered.keys.mem_iff.mpr (List.mem_eraseDups.mpr last.2)
  obtain ⟨before, after, split⟩ := List.append_of_mem added
  rw [split] at distinct
  exact (List.nodup_append.mp distinct).2.2 key (earlier circle before after split) key
    List.mem_cons_self rfl

theorem leftoverKeys (graph : Graph) (done : List String) :
    (graph.leftover done).map Prod.fst = graph.keys.filter (· ∉ done) := by
  rw [← waitingKeys, List.filter_map, leftover, List.map_map]
  rfl

theorem leftoverMember {graph : Graph} {done deps : List String} {key : String} :
    (key, deps) ∈ graph.leftover done ↔
      ∃ before, (key, before) ∈ graph.waiting ∧ key ∉ done ∧ deps = before.filter (· ∉ done) := by
  constructor
  · intro member
    obtain ⟨⟨_, before⟩, kept, same⟩ := List.mem_map.mp member
    cases same
    obtain ⟨inside, fresh⟩ := List.mem_filter.mp kept
    exact ⟨before, inside, of_decide_eq_true fresh, rfl⟩
  · rintro ⟨before, inside, fresh, rfl⟩
    exact List.mem_map.mpr ⟨_, List.mem_filter.mpr ⟨inside, decide_eq_true fresh⟩, rfl⟩

theorem leftoverSome {graph : Graph} {done : List String} (fewer : done.length < graph.keys.length) :
    graph.leftover done ≠ [] := by
  intro none
  have listed := leftoverKeys graph done
  rw [none, List.map_nil, eq_comm, List.filter_eq_nil_iff] at listed
  have inside : graph.keys ⊆ done := fun key known => by simpa using listed key known
  exact absurd (List.subperm_of_subset graph.nodes.distinct inside).length_le (Nat.not_le.mpr fewer)

theorem leftoverStuck {graph : Graph} {done : List String} (exhausted : Exhausted graph.waiting [] done) :
    Stuck (graph.leftover done) := by
  constructor
  · rintro ⟨key, deps⟩ member none
    obtain ⟨before, inside, fresh, rfl⟩ := leftoverMember.mp member
    have settled : before ⊆ done := fun d needed => by
      simpa using List.filter_eq_nil_iff.mp none d needed
    exact fresh (by simpa using exhausted _ inside settled)
  · rintro ⟨key, deps⟩ member d needed
    obtain ⟨before, inside, _, rfl⟩ := leftoverMember.mp member
    obtain ⟨old, unsettled⟩ := List.mem_filter.mp needed
    obtain ⟨node, _, same⟩ := List.mem_map.mp inside
    cases same
    rw [leftoverKeys, List.mem_filter]
    exact ⟨of_decide_eq_true (List.mem_filter.mp old).2, unsettled⟩

theorem leftoverNeeds {done : List String} {key dependency : String}
    (waits : Waits ((build additions).leftover done) key dependency) :
    Needs additions key dependency := by
  obtain ⟨deps, member, needed⟩ := waits
  obtain ⟨before, inside, _, rfl⟩ := leftoverMember.mp member
  exact (waitingNeeds inside).mp (List.mem_filter.mp needed).1

theorem orderedExhausted {graph : Graph} (fewer : graph.ordered.length < graph.keys.length) :
    Exhausted graph.waiting [] graph.ordered := by
  refine (settleExhausted _ (exhaustedFree _)).resolve_left fun full => ?_
  rw [ordered, full, ← waitingKeys] at fewer
  simp at fewer

structure Trapped (additions : List Addition) (left : List Waiting) (cycle labels : List String) :
    Prop where
  circle : Circle (Needs additions) cycle
  labelled : List.Forall₂ (Labelled additions) cycle labels
  search : Search left [] (left.map Prod.fst) [] (.cycle cycle)
  found : findCycle left = cycle

theorem unorderedTrapped {left : List Waiting}
    (fewer : (build additions).ordered.length < (build additions).keys.length)
    (rest : left = (build additions).leftover (build additions).ordered) :
    Trapped additions left (findCycle left) ((findCycle left).map (build additions).labelOf) := by
  subst rest
  have unique := (build additions).nodes.distinct.filter (· ∉ (build additions).ordered)
  obtain ⟨search, circle⟩ := stuckCycle (leftoverStuck (orderedExhausted fewer))
    (leftoverKeys _ _ ▸ unique) (leftoverSome fewer)
  have needed := circleWithin circle fun _ _ => leftoverNeeds
  refine ⟨needed, ?_, search, rfl⟩
  rw [List.forall₂_map_right_iff, List.forall₂_same]
  intro key member
  obtain ⟨_, _, added⟩ := circleEntered needed key member
  exact labelFound added

theorem traverseEnds (additions : List Addition) : (∃ order, (build additions).traverse = .ok order) ∨
    ∃ cycle labels, (build additions).traverse = .error (.cyclic labels) ∧
      Trapped additions ((build additions).leftover (build additions).ordered) cycle labels := by
  by_cases fewer : (build additions).ordered.length < (build additions).keys.length
  · refine .inr ⟨_, _, ?_, unorderedTrapped fewer rfl⟩
    simp only [traverse, if_pos fewer]
  · refine .inl ⟨(build additions).ordered, ?_⟩
    simp only [traverse, if_neg fewer]

theorem traversalDecides (additions : List Addition) :
    ((∃ order, (build additions).traverse = .ok order) ↔ Acyclic additions) ∧
    (∀ order, (build additions).traverse = .ok order → Ordered additions order) ∧
    (¬Acyclic additions → ∃ cycle labels, (build additions).traverse = .error (.cyclic labels) ∧
      Trapped additions ((build additions).leftover (build additions).ordered) cycle labels) := by
  have acyclic : (∃ order, (build additions).traverse = .ok order) → Acyclic additions :=
    fun ⟨_, ok⟩ => orderedAcyclic (traversedDistinct ok) (traversedOrdered ok)
  refine ⟨⟨acyclic, fun free => (traverseEnds additions).resolve_right ?_⟩, fun _ => traversedOrdered,
    fun cyclic => (traverseEnds additions).resolve_left fun orders => cyclic (acyclic orders)⟩
  rintro ⟨_, _, _, trapped⟩
  obtain ⟨key, back⟩ := circleReturns trapped.circle
  exact free key back

/- A circle behind a key that is free, with a dependency on a key that never comes. -/
example : (build [⟨"a", "A", []⟩, ⟨"b", "B", ["a", "c"]⟩, ⟨"c", "C", ["b", "z"]⟩]).traverse
    = .error (.cyclic ["B", "C", "B"]) := by cbv

end Traverse
end Codegen.Graph
