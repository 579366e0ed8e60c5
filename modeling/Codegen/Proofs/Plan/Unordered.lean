import Codegen.Proofs.Graph.Complete
import Codegen.Proofs.Plan.Sound
import Codegen.Proofs.Plan.Wanted
import Mathlib.Data.Set.Finite.Basic

/-! Targets in another order. Where providers answer by the key of a request, lists of targets with the
same keys are resolved alike: to plans with the same steps, or not at all and for the same cause. -/
namespace Codegen.Plan

def roots (registry : Registry) (requests : List Request) : List Request :=
  requests ++ registry.pending.map (·.request) ++ registry.singletons.map Provider.singletonRequest

def Ends (registry : Registry) (targets : List RequestForm) (outcome : Except Error Plan) : Prop :=
  ∃ fuel, resolveWithin fuel registry targets = some outcome

inductive Concur : Except Error Plan → Except Error Plan → Prop where
  | planned {plan other : Plan} (keys : ∀ key, key ∈ plan.keys ↔ key ∈ other.keys)
      (steps : ∀ s ∈ plan.steps, ∀ t ∈ other.steps, s.key = t.key → Agree s t) :
      Concur (.ok plan) (.ok other)
  | ambiguous {kind kind' providers providers'} :
      Concur (.error (.ambiguous kind providers)) (.error (.ambiguous kind' providers'))
  | notFound {kind kind' params params' requestedBy requestedBy'} :
      Concur (.error (.notFound kind params requestedBy)) (.error (.notFound kind' params' requestedBy'))
  | cyclic {cycle cycle'} : Concur (.error (.cyclic cycle)) (.error (.cyclic cycle'))

theorem traverseAlike {first second : Table String Step} (keys : second.keys ⊆ first.keys)
    (needs : ∀ key s t, first.find? key = some s → second.find? key = some t →
      t.predecessors ⊆ s.predecessors) {order : List String}
    (ok : (graph first).traverse = .ok order) : ∃ other, (graph second).traverse = .ok other := by
  refine ⟨_, Graph.traverseArranged order ?_ ?_⟩
  · intro key known
    rw [(Graph.traversedKeys ok).mem_iff, graphKeys]
    exact keys (graphKeys second ▸ known)
  · intro before key after split entry member same d needed
    obtain ⟨held, inside, rfl⟩ := List.mem_map.mp member
    rw [graphOfSteps] at inside
    obtain ⟨⟨_, t⟩, filed, rfl⟩ := List.mem_map.mp inside
    subst same
    obtain ⟨waits, present⟩ := List.mem_filter.mp needed
    have known : d ∈ second.keys := graphKeys second ▸ of_decide_eq_true present
    have placed := Table.findPresent.mpr filed
    obtain ⟨s, found⟩ := Table.keyFound.mp (keys (Table.keyFound.mpr ⟨t, placed⟩))
    have depends : d ∈ t.predecessors :=
      (Text.memExtend.mp waits).resolve_left List.not_mem_nil
    refine Graph.traversedEarlier ok split (graphNode found)
      (Text.memExtend.mpr (.inr (needs _ s t found placed depends))) ?_
    rw [graphKeys]
    exact keys known

section Arranged

variable {registry : Registry} {rooted rooted' : List String} {steps others : Table String Step}

theorem arrangedPlan (inv : Expanding registry rooted [] steps) {order : List String}
    (ok : (graph steps).traverse = .ok order) : ∃ plan, arrange steps = .ok plan ∧
      (∀ key, key ∈ plan.keys ↔ key ∈ steps.keys) ∧ ∀ s, s ∈ plan.steps ↔ s ∈ steps.values := by
  obtain ⟨plan, arranged⟩ : ∃ plan, arrange steps = .ok plan := ⟨_, by rw [arrange, ok]; rfl⟩
  refine ⟨plan, arranged, fun key => ?_, fun s => arrangedValues inv arranged⟩
  rw [(Graph.traversedKeys (arrangedKeys inv arranged)).mem_iff, graphKeys]

theorem arrangedCyclic {e : Error} (failed : (graph steps).traverse = .error e) :
    ∃ cycle, arrange steps = .error (.cyclic cycle) := by
  obtain ⟨cycle, rfl⟩ := Graph.traversalRefused failed
  exact ⟨cycle, by rw [arrange, failed]; rfl⟩

theorem arrangedConcur (steady : registry.Steady) (inv : Expanding registry rooted [] steps)
    (inv' : Expanding registry rooted' [] others) (same : ∀ key, key ∈ steps.keys ↔ key ∈ others.keys) :
    Concur (arrange steps) (arrange others) := by
  have agree : ∀ key s t, steps.find? key = some s → others.find? key = some t → Agree s t := by
    intro key s t left right
    refine stepsAgree steady inv inv' (Table.valuesMember.mpr ⟨key, left⟩)
      (Table.valuesMember.mpr ⟨key, right⟩) ?_
    rw [(inv.filed key s left).1, (inv'.filed key t right).1]
  have needs : ∀ {s t : Step}, Agree s t → s.predecessors = t.predecessors := by
    intro s t both
    rw [Step.predecessors, Step.predecessors, both.dependencies, both.optional]
  cases first : (graph steps).traverse with
  | ok order =>
    obtain ⟨order', second⟩ := traverseAlike (fun key => (same key).mpr)
      (fun key s t left right => (needs (agree key s t left right)) ▸ List.Subset.refl _) first
    obtain ⟨plan, arranged, keys, members⟩ := arrangedPlan inv first
    obtain ⟨plan', arranged', keys', members'⟩ := arrangedPlan inv' second
    rw [arranged, arranged']
    refine .planned (fun key => by rw [keys, keys', same]) fun s left t right equal => ?_
    exact stepsAgree steady inv inv' ((members s).mp left) ((members' t).mp right) equal
  | error e =>
    cases second : (graph others).traverse with
    | ok order =>
      obtain ⟨_, also⟩ := traverseAlike (fun key => (same key).mp)
        (fun key s t left right => (needs (agree key t s right left)) ▸ List.Subset.refl _) second
      rw [first] at also
      cases also
    | error e' =>
      obtain ⟨cycle, refused⟩ := arrangedCyclic first
      obtain ⟨cycle', refused'⟩ := arrangedCyclic second
      rw [refused, refused']
      exact .cyclic

end Arranged

section Resolved

variable {registry : Registry} {targets others : List RequestForm} {requests requests' : List Request}

def Reads (targets : List RequestForm) (requests : List Request) : Prop :=
  List.Forall₂ (fun form request => form.request = .ok request) targets requests

theorem initialRoots (registry : Registry) (requests : List Request) :
    (initial registry requests).map (·.request) = roots registry requests := by
  simp [initial, roots, Function.comp_def]

theorem queueRead (checked : registry.checkSingletons = .ok ()) (read : Reads targets requests) :
    queue registry targets = .ok (initial registry requests) := by
  refine Outcome.bindOk.mpr ⟨(), checked, Outcome.bindOk.mpr ⟨requests, ?_, rfl⟩⟩
  exact Outcome.eachOk.mpr (read.imp fun _ _ => Outcome.mapErrorOk.mpr)

theorem expansionEnds (steady : registry.Steady) (checked : registry.checkSingletons = .ok ())
    (finite : {key | ∃ r, Wanted registry (roots registry requests) r ∧ r.key = key}.Finite)
    (read : Reads targets requests) : ∃ fuel expanded,
      expand registry fuel (initial registry requests) Table.empty = some expanded ∧
      Ends registry targets (expanded.bind arrange) := by
  have start := wantingStart registry (initial registry requests)
  rw [initialRoots] at start
  obtain ⟨fuel, expanded, ended⟩ := expandEnds (wantingKept steady (roots registry requests))
    finite.toFinset (fun {asked _ _} held => finite.mem_toFinset.mpr
      ⟨asked.request, held.queued asked List.mem_cons_self, rfl⟩) start
  exact ⟨fuel, expanded, ended, fuel, by rw [resolveWithin, queueRead checked read]; simp [ended]⟩

theorem rootsSame (registry : Registry) (same : ∀ key ∈ requests.map Request.key, key ∈ requests'.map Request.key) :
    ∀ key ∈ (roots registry requests).map Request.key,
      key ∈ (roots registry requests').map Request.key := by
  intro key member
  simp only [roots, List.map_append, List.mem_append] at member ⊢
  exact member.imp_left (Or.imp_left (same key))

/- Where one list of targets is expanded completely, nothing that another wants is without a taker. -/
theorem completeTaken (steady : registry.Steady) {rooted rooted' : List Request}
    {steps : Table String Step} (inv : Expanding registry (rooted.map Request.key) [] steps)
    (same : ∀ key ∈ rooted'.map Request.key, key ∈ rooted.map Request.key) {r : Request}
    (wanted : Wanted registry rooted' r) : r.key ∈ steps.keys ∧ registry.firstTaker r ≠ none := by
  obtain ⟨s, also, equal⟩ := wantedSame steady same wanted
  have known := wantedPlanned steady inv also
  rw [equal] at known
  obtain ⟨_, _, _, _, taker⟩ := plannedStep steady inv known
  exact ⟨known, by simp [taker]⟩

theorem completeKeys (steady : registry.Steady) {rooted rooted' : List Request}
    {steps others : Table String Step} (inv : Expanding registry (rooted.map Request.key) [] steps)
    (wanting : Wanting registry rooted' [] others)
    (same : ∀ key ∈ rooted'.map Request.key, key ∈ rooted.map Request.key) :
    ∀ key ∈ others.keys, key ∈ steps.keys := by
  intro key known
  obtain ⟨t, found⟩ := Table.keyFound.mp known
  have planned := (completeTaken steady inv same (wanting.planned key t found)).1
  have equal : t.request.key = key := (wanting.expanding.filed key t found).1
  rwa [equal] at planned

theorem singletonsRefused {e : Error} (refused : registry.checkSingletons = .error e) :
    ∃ kind providers, ∀ targets, Ends registry targets (.error (.ambiguous kind providers)) := by
  obtain ⟨kind, providers, rfl⟩ : ∃ kind providers, e = .ambiguous kind providers := by
    unfold Registry.checkSingletons at refused
    split at refused <;> cases refused
    exact ⟨_, _, rfl⟩
  exact ⟨kind, providers, fun targets => ⟨0, by rw [resolveWithin, queue, refused]; rfl⟩⟩

theorem wantedFinite (steady : registry.Steady)
    (finite : {key | ∃ r, Wanted registry (roots registry requests) r ∧ r.key = key}.Finite)
    (same : ∀ key ∈ (roots registry requests').map Request.key,
      key ∈ (roots registry requests).map Request.key) :
    {key | ∃ r, Wanted registry (roots registry requests') r ∧ r.key = key}.Finite := by
  refine finite.subset fun key wanted => ?_
  obtain ⟨r, wanted, equal⟩ := wanted
  obtain ⟨s, also, agrees⟩ := wantedSame steady same wanted
  exact ⟨s, also, agrees.trans equal⟩

theorem expansionsConcur (steady : registry.Steady) (checked : registry.checkSingletons = .ok ())
    {rooted rooted' : List Request} (left : ∀ key ∈ rooted.map Request.key, key ∈ rooted'.map Request.key)
    (right : ∀ key ∈ rooted'.map Request.key, key ∈ rooted.map Request.key) {queue queue' : List Asked}
    {fuel fuel' : Nat} {first second : Except Error (Table String Step)}
    (start : Wanting registry rooted queue Table.empty) (start' : Wanting registry rooted' queue' Table.empty)
    (ended : expand registry fuel queue Table.empty = some first)
    (ended' : expand registry fuel' queue' Table.empty = some second) :
    Concur (first.bind arrange) (second.bind arrange) := by
  have halted := expandHalted (wantingKept steady _) fuel start ended
  have halted' := expandHalted (wantingKept steady _) fuel' start' ended'
  cases first with
  | ok steps =>
    cases halted with | complete wanting =>
    cases second with
    | ok steps' =>
      cases halted' with | complete wanting' =>
      exact arrangedConcur steady wanting.expanding wanting'.expanding fun key =>
        ⟨completeKeys steady wanting'.expanding wanting left key,
          completeKeys steady wanting.expanding wanting' right key⟩
    | error e =>
      obtain ⟨r, _, wanted, refused, _⟩ := expansionRefused steady checked start' ended'
      exact absurd refused (completeTaken steady wanting.expanding right wanted).2
  | error e =>
    obtain ⟨r, _, wanted, refused, rfl⟩ := expansionRefused steady checked start ended
    cases second with
    | ok steps' =>
      cases halted' with | complete wanting' =>
      exact absurd refused (completeTaken steady wanting'.expanding left wanted).2
    | error e' =>
      obtain ⟨_, _, _, _, rfl⟩ := expansionRefused steady checked start' ended'
      exact .notFound

theorem targetsUnordered (steady : registry.Steady)
    (finite : {key | ∃ r, Wanted registry (roots registry requests) r ∧ r.key = key}.Finite)
    (read : Reads targets requests) (read' : Reads others requests')
    (same : ∀ key, key ∈ requests.map Request.key ↔ key ∈ requests'.map Request.key) :
    ∃ first second, Ends registry targets first ∧ Ends registry others second ∧
      Concur first second := by
  cases checked : registry.checkSingletons with
  | error e =>
    obtain ⟨kind, providers, refused⟩ := singletonsRefused checked
    exact ⟨_, _, refused targets, refused others, .ambiguous⟩
  | ok _ =>
    have left := rootsSame registry fun key => (same key).mp
    have right := rootsSame registry fun key => (same key).mpr
    have start (requests : List Request) :
        Wanting registry (roots registry requests) (initial registry requests) Table.empty :=
      initialRoots registry requests ▸ wantingStart registry (initial registry requests)
    obtain ⟨fuel, first, ended, resolved⟩ := expansionEnds steady checked finite read
    obtain ⟨fuel', second, ended', resolved'⟩ :=
      expansionEnds steady checked (wantedFinite steady finite right) read'
    exact ⟨_, _, resolved, resolved',
      expansionsConcur steady checked left right (start requests) (start requests') ended ended'⟩

end Resolved

namespace Sample

def targets : List RequestForm :=
  [.bare "page", .bare "row"]

def others : List RequestForm :=
  [.pair [.text "row", .object []], .bare "page", .bare "row"]

def requests : List Request :=
  [⟨"page", .null⟩, ⟨"row", .null⟩]

theorem registrySteady : registry.Steady := by
  intro p member
  simp only [registry, List.mem_cons, List.not_mem_nil, or_false] at member
  rcases member with rfl | rfl | rfl | rfl <;>
    exact ⟨fun _ _ _ => ⟨_, rfl, rfl⟩, fun _ _ _ => ⟨_, _, rfl, rfl, rfl⟩,
      fun _ _ _ => ⟨_, _, rfl, rfl, rfl⟩⟩

def wantedKeys : List String :=
  ["page::\x7b\x7d", "row::\x7b\x7d", "store::\x7b\x7d"]

theorem wantedWithin {r : Request} (wanted : Wanted registry (Plan.roots registry requests) r) :
    r.key ∈ wantedKeys := by
  have row : (⟨"row", .null⟩ : Request).key ∈ wantedKeys := by decide
  have store : (⟨"store", .null⟩ : Request).key ∈ wantedKeys := by decide
  have members : registry.providers = [page, refuser, Sample.row, Sample.store] := rfl
  cases wanted with
  | root member =>
    have initial : Plan.roots registry requests = [⟨"page", .null⟩, ⟨"row", .null⟩, ⟨"row", .null⟩,
      ⟨"row", .null⟩, ⟨"store", .null⟩, ⟨"store", .null⟩] := rfl
    simp only [initial, List.mem_cons, List.not_mem_nil, or_false] at member
    rcases member with rfl | rfl | rfl | rfl | rfl | rfl
    · decide
    all_goals assumption
  | @required _ _ p _ _ taker answer member =>
    have known := Registry.takerKnown taker
    simp only [members, List.mem_cons, List.not_mem_nil, or_false] at known
    rcases known with rfl | rfl | rfl | rfl <;> cases answer <;> simp at member
    · exact member ▸ row
    · exact member ▸ store
  | @optional _ _ p _ _ taker answer member offered =>
    have known := Registry.takerKnown taker
    simp only [members, List.mem_cons, List.not_mem_nil, or_false] at known
    rcases known with rfl | rfl | rfl | rfl <;> cases answer <;> simp at member
    rcases member with rfl | rfl
    · exact absurd offered (by decide)
    · exact store

def otherPlan : Plan :=
  ⟨[⟨store, ⟨"store", .null⟩, [], []⟩,
    ⟨row, ⟨"row", .object []⟩, ["store::\x7b\x7d"], []⟩,
    ⟨page, ⟨"page", .null⟩, ["row::\x7b\x7d", "row::\x7b\x7d"], [none, some "store::\x7b\x7d"]⟩]⟩

theorem targetsSwapped : Resolves registry targets plan ∧ Resolves registry others otherPlan ∧
    Concur (.ok plan) (.ok otherPlan) := by
  have resolved : Resolves registry targets plan := ⟨20, rfl⟩
  have resolved' : Resolves registry others otherPlan := ⟨20, by cbv⟩
  have finite : {key | ∃ r, Wanted registry (Plan.roots registry requests) r ∧ r.key = key}.Finite := by
    refine (List.finite_toSet wantedKeys).subset fun key found => ?_
    obtain ⟨r, wanted, rfl⟩ := found
    exact wantedWithin wanted
  have same : ∀ key, key ∈ requests.map Request.key ↔
      key ∈ [(⟨"row", .object []⟩ : Request), ⟨"page", .null⟩, ⟨"row", .null⟩].map Request.key := by
    have left : requests.map Request.key = ["page::\x7b\x7d", "row::\x7b\x7d"] := by decide
    have right : [(⟨"row", .object []⟩ : Request), ⟨"page", .null⟩, ⟨"row", .null⟩].map Request.key =
        ["row::\x7b\x7d", "page::\x7b\x7d", "row::\x7b\x7d"] := by cbv
    intro key
    simp only [left, right, List.mem_cons, List.not_mem_nil]
    tauto
  have read : Reads targets requests := .cons rfl (.cons rfl .nil)
  have read' : Reads others [⟨"row", .object []⟩, ⟨"page", .null⟩, ⟨"row", .null⟩] :=
    .cons rfl (.cons rfl (.cons rfl .nil))
  obtain ⟨first, second, ⟨_, ended⟩, ⟨_, ended'⟩, concur⟩ :=
    targetsUnordered registrySteady finite read read' same
  obtain ⟨_, reached⟩ := resolved
  obtain ⟨_, reached'⟩ := resolved'
  cases resolvedOnce ended reached
  cases resolvedOnce ended' reached'
  exact ⟨⟨_, reached⟩, ⟨_, reached'⟩, concur⟩

end Sample
end Codegen.Plan
