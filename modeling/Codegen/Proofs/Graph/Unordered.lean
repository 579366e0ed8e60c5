import Codegen.Proofs.Graph.Progress
import Codegen.Proofs.Graph.Traversal
import Codegen.Proofs.Outcome
import Codegen.Proofs.Text.Lines

/-! What a traversal owes to the order of the keys and what to that of the dependencies. Keys are settled in an
order that comes from the order in which they were added; the dependencies of one key are a set, and neither
the order in which a set was filled nor the one in which it is gone through shows in the result, nor in the
cycle where there is one. -/
namespace Codegen.Graph

def Reordered : List Waiting → List Waiting → Prop :=
  List.Forall₂ (fun set other => set.1 = other.1 ∧ set.2.Perm other.2)

section Reordered

variable {sets others : List Waiting}

theorem reorderedKeys (reordered : Reordered sets others) : sets.map Prod.fst = others.map Prod.fst := by
  induction reordered with
  | nil => rfl
  | cons both _ ih => rw [List.map_cons, List.map_cons, both.1, ih]

theorem reorderedFilter (reordered : Reordered sets others) {test : Waiting → Bool}
    (same : ∀ set other : Waiting, set.1 = other.1 → set.2.Perm other.2 → test set = test other) :
    Reordered (sets.filter test) (others.filter test) := by
  induction reordered with
  | nil => exact .nil
  | @cons set other _ _ both _ ih =>
    rw [List.filter_cons, List.filter_cons, same set other both.1 both.2]
    split
    · exact .cons both ih
    · exact ih

theorem reorderedReleased (reordered : Reordered sets others) (done : List String) (key : String) :
    released sets done key = released others done key := by
  refine reorderedKeys (reorderedFilter reordered fun set other _ order => ?_)
  rw [Bool.eq_iff_iff, decide_eq_true_eq, decide_eq_true_eq, order.mem_iff, order.all_eq]

theorem reorderedSettle (reordered : Reordered sets others) (fuel : Nat) (ready done : List String) :
    settle sets fuel ready done = settle others fuel ready done := by
  induction fuel generalizing ready done with
  | zero => rfl
  | succ fuel ih =>
    cases ready with
    | nil => rfl
    | cons key rest => rw [settle, settle, reorderedReleased reordered, ih]

theorem reorderedSettled (reordered : Reordered sets others) : settledKeys sets = settledKeys others := by
  have free : (sets.filter (fun set => set.2.isEmpty)).map (·.1) =
      (others.filter (fun set => set.2.isEmpty)).map (·.1) :=
    reorderedKeys (reorderedFilter reordered fun _ _ _ order => order.isEmpty_eq)
  rw [settledKeys, settledKeys, free, reordered.length_eq, reorderedSettle reordered]

theorem reorderedUnsettled (reordered : Reordered sets others) (done : List String) :
    Reordered (unsettled sets done) (unsettled others done) := by
  have kept : Reordered (sets.filter (fun set => set.1 ∉ done)) (others.filter (fun set => set.1 ∉ done)) :=
    reorderedFilter reordered fun set other same _ => by rw [same]
  refine List.forall₂_map_left_iff.mpr (List.forall₂_map_right_iff.mpr (kept.imp fun _ _ both => ?_))
  exact ⟨both.1, both.2.filter _⟩

theorem reorderedWaits (reordered : Reordered sets others) (key : String) :
    (waitsFor sets key).Perm (waitsFor others key) := by
  induction reordered with
  | nil => exact .nil
  | @cons set other _ _ both _ ih =>
    rw [waitsFor, waitsFor, List.find?_cons, List.find?_cons, both.1]
    by_cases found : other.1 = key
    · simpa [found] using both.2
    · simpa [found, waitsFor] using ih

/- A walk sees a set only in ascending order. -/
theorem reorderedWalk (reordered : Reordered sets others) (fuel : Nat) :
    walkFrom sets fuel = walkFrom others fuel := by
  induction fuel with
  | zero => rfl
  | succ fuel ih =>
    funext path key visited
    rw [walkFrom, walkFrom, ih, Text.sortedPerm (reorderedWaits reordered key)]

theorem reorderedCycle (reordered : Reordered sets others) : findCycle sets = findCycle others := by
  have keys : sets.map (·.1) = others.map (·.1) := reorderedKeys reordered
  rw [findCycle, findCycle, keys, reordered.length_eq, reorderedWalk reordered]

theorem reorderedOutcome (reordered : Reordered sets others) (labelOf : String → String) :
    outcomeOf sets labelOf = outcomeOf others labelOf := by
  have left := reorderedUnsettled reordered (settledKeys others)
  rw [outcomeOf, outcomeOf, reorderedSettled reordered, reordered.length_eq, reorderedCycle left]

theorem reorderedDistinct (reordered : Reordered sets others) (distinct : Distinct others) :
    Distinct sets := by
  refine ⟨reorderedKeys reordered ▸ distinct.keys, fun set member => ?_⟩
  obtain ⟨other, inside, _, order⟩ := Outcome.eachPaired reordered set member
  exact order.nodup_iff.mpr (distinct.each other inside)

end Reordered

section Sets

variable {sets others : List Waiting}

theorem setsRead (unique : (sets.map Prod.fst).Nodup) :
    sets = (sets.map Prod.fst).map (fun key => (key, waitsFor sets key)) := by
  rw [List.map_map]
  refine (List.map_id sets).symm.trans (List.map_congr_left fun set member => ?_)
  rw [Function.comp_apply, heldWaits unique member, id]

theorem setsReordered (distinct : Distinct sets) (distinct' : Distinct others)
    (keys : sets.map Prod.fst = others.map Prod.fst)
    (same : ∀ key dependency, Waits sets key dependency ↔ Waits others key dependency) :
    Reordered sets others := by
  have apart {sets : List Waiting} (distinct : Distinct sets) (key : String) :
      (waitsFor sets key).Nodup := by
    rw [waitsFor]
    cases found : sets.find? (fun set => set.1 = key) with
    | none => exact List.nodup_nil
    | some set => exact distinct.each set (List.mem_of_find?_eq_some found)
  rw [Reordered, setsRead distinct.keys, setsRead distinct'.keys, keys, List.forall₂_map_left_iff,
    List.forall₂_map_right_iff, List.forall₂_same]
  refine fun key _ => ⟨rfl, (List.perm_ext_iff_of_nodup (apart distinct key) (apart distinct' key)).mpr ?_⟩
  intro dependency
  rw [waitsMember distinct.keys, waitsMember distinct'.keys, same]

end Sets

section Build

variable {additions first second : List Addition}

theorem buildDistinct (additions : List Addition) : Distinct (build additions).waiting := by
  have each : ∀ key node, (build additions).nodes.find? key = some node → node.dependencies.Nodup := by
    induction additions using List.reverseRecOn with
    | nil => exact fun key node found => by cases found
    | append_singleton additions a ih =>
      intro key node found
      rw [buildSnoc, addFind] at found
      split at found
      · cases found
        refine Text.extendDistinct ?_ _
        cases held : (build additions).nodes.find? key with
        | none => exact List.nodup_nil
        | some before => exact ih key before held
      · exact ih key node found
  refine ⟨?_, fun set member => ?_⟩
  · rw [waitingKeys]
    exact (build additions).nodes.distinct
  · obtain ⟨entry, inside, rfl⟩ := List.mem_map.mp member
    exact (each entry.1 entry.2 (Table.findPresent.mpr inside)).filter _

theorem waitsNeeds {key dependency : String} :
    Waits (build additions).waiting key dependency ↔ Needs additions key dependency := by
  constructor
  · rintro ⟨deps, held, needed⟩
    exact (waitingNeeds held).mp needed
  · intro needs
    obtain ⟨a, member, same, _⟩ := needs.1
    have known : key ∈ (build additions).waiting.map Prod.fst := by
      rw [waitingKeys, keyAdded]
      exact List.mem_map.mpr ⟨a, member, same⟩
    obtain ⟨⟨_, deps⟩, held, rfl⟩ := List.mem_map.mp known
    exact ⟨deps, held, (waitingNeeds held).mpr needs⟩

structure Alike (first second : List Addition) : Prop where
  keys : (first.map Addition.key).eraseDups = (second.map Addition.key).eraseDups
  labels : ∀ key ∈ first.map Addition.key, (build first).labelOf key = (build second).labelOf key
  sets : ∀ key dependency, Declares first key dependency ↔ Declares second key dependency

theorem alikeKeys (alike : Alike first second) (key : String) :
    key ∈ first.map Addition.key ↔ key ∈ second.map Addition.key := by
  rw [← List.mem_eraseDups, alike.keys, List.mem_eraseDups]

theorem alikeLabels (alike : Alike first second) : (build first).labelOf = (build second).labelOf := by
  have absent {additions : List Addition} {key : String} (other : key ∉ additions.map Addition.key) :
      (build additions).labelOf key = key := by
    rw [labelOf, Table.findAbsent.mpr fun known => other (keyAdded.mp known)]
    rfl
  funext key
  by_cases added : key ∈ first.map Addition.key
  · exact alike.labels key added
  · rw [absent added, absent fun known => added ((alikeKeys alike key).mpr known)]

theorem alikeReordered (alike : Alike first second) :
    Reordered (build first).waiting (build second).waiting := by
  refine setsReordered (buildDistinct first) (buildDistinct second) ?_ fun key dependency => ?_
  · rw [waitingKeys, waitingKeys, buildKeys, buildKeys, alike.keys]
  · rw [waitsNeeds, waitsNeeds, Needs, Needs, alike.sets, alikeKeys alike]

theorem traverseOutcome (graph : Graph) : graph.traverse = outcomeOf graph.waiting graph.labelOf := by
  have keys : graph.keys.length = graph.waiting.length := by rw [← waitingKeys, List.length_map]
  rw [outcomeOf, ← keys]
  rfl

theorem traversalUnordered (alike : Alike first second) :
    (build first).traverse = (build second).traverse ∧
    ∀ sets, Reordered sets (build second).waiting → ∀ outcome,
      Traversed sets (build second).labelOf outcome ↔ outcome = (build first).traverse := by
  have same : (build first).traverse = (build second).traverse := by
    rw [traverseOutcome, traverseOutcome, alikeLabels alike, reorderedOutcome (alikeReordered alike)]
  refine ⟨same, fun sets reordered outcome => ?_⟩
  rw [traversedSets (reorderedDistinct reordered (buildDistinct second)), reorderedOutcome reordered,
    ← traverseOutcome, same]

end Build

/- A circle behind a key that is free: once with all dependencies at once, and once piece by piece, with
repetitions and in another order. -/
namespace Sample

def whole : List Addition :=
  [⟨"a", "A", []⟩, ⟨"b", "B", ["a", "d", "c"]⟩, ⟨"c", "C", ["b"]⟩, ⟨"d", "D", ["b", "z"]⟩]

def pieces : List Addition :=
  [⟨"a", "A", []⟩, ⟨"b", "none", ["c"]⟩, ⟨"c", "C", ["b", "b"]⟩, ⟨"b", "B", ["d", "c", "a"]⟩,
    ⟨"d", "D", ["z", "b"]⟩]

theorem piecesAlike : Alike whole pieces where
  keys := by decide
  labels := by decide
  sets := by
    intro key dependency
    simp only [Declares, whole, pieces, List.mem_cons, List.not_mem_nil, or_false, exists_eq_or_imp,
      exists_eq_left]
    grind

def shuffled : List Waiting :=
  [("a", []), ("b", ["a", "d", "c"]), ("c", ["b"]), ("d", ["b"])]

theorem shuffledPieces : Reordered shuffled (build pieces).waiting := by
  have sets : (build pieces).waiting =
      [("a", []), ("b", ["c", "d", "a"]), ("c", ["b"]), ("d", ["b"])] := by cbv
  rw [sets]
  refine .cons ⟨rfl, .nil⟩ (.cons ⟨rfl, ?_⟩ (.cons ⟨rfl, .refl _⟩ (.cons ⟨rfl, .refl _⟩ .nil)))
  decide

theorem piecesTraversed : Alike whole pieces ∧
    (build whole).traverse = .error (.cyclic ["B", "C", "B"]) ∧
    (build pieces).traverse = .error (.cyclic ["B", "C", "B"]) ∧
    Traversed shuffled (build pieces).labelOf (.error (.cyclic ["B", "C", "B"])) := by
  obtain ⟨same, all⟩ := traversalUnordered piecesAlike
  have cycle : (build whole).traverse = .error (.cyclic ["B", "C", "B"]) := by cbv
  exact ⟨piecesAlike, cycle, same ▸ cycle, (all shuffled shuffledPieces _).mpr cycle.symm⟩

end Sample
end Codegen.Graph
