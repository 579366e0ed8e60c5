import Codegen.Proofs.Graph.Order
import Codegen.Proofs.Plan.Expansion

/-! Plans are sound. The steps of a plan are exactly what its roots reach, one step for each key, each
with the first provider that takes its request, and every step stands after those it depends on. The
number of requests that were taken from the queue does not matter. -/
namespace Codegen.Plan

def rootKeys (registry : Registry) (targets : List Request) : List String :=
  targets.map Request.key ++ registry.pending.map (·.request.key)
    ++ registry.singletons.map (·.singletonRequest.key)

def Supplies (plan : Plan) (request : Request) (key : String) : Prop :=
  key = request.key ∧ ∃ s ∈ plan.steps, s.key = key

structure Sound (registry : Registry) (targets : List Request) (plan : Plan) : Prop where
  distinct : plan.keys.Nodup
  complete : ∀ key, key ∈ plan.keys ↔ Reached plan.steps (rootKeys registry targets) key
  provider : ∀ s ∈ plan.steps, registry.firstTaker s.request = some s.provider
  required : ∀ s ∈ plan.steps, ∃ requests, s.provider.required s.request.params = .ok requests ∧
    List.Forall₂ plan.Supplies requests s.dependencies
  optional : ∀ s ∈ plan.steps, ∃ requests, s.provider.optional s.request.params = .ok requests ∧
    List.Forall₂ (fun request place => (∃ key, place = some key ∧ plan.Supplies request key) ∨
      place = none ∧ registry.firstTaker request = none) requests s.optional
  ordered : ∀ before s after, plan.steps = before ++ s :: after →
    ∀ key ∈ s.predecessors, key ∈ before.map Step.key

def node (s : Step) : GraphNode :=
  ⟨s.describe, Text.unique s.predecessors⟩

theorem graphEntries {entries : List (String × Step)} (distinct : (entries.map Prod.fst).Nodup)
    {g : Graph} (fresh : ∀ entry ∈ entries, entry.1 ∉ g.keys) :
    (entries.foldl (fun g entry => g.add entry.1 entry.2.describe entry.2.predecessors) g).nodes.entries
      = g.nodes.entries ++ entries.map (fun entry => (entry.1, node entry.2)) := by
  induction entries generalizing g with
  | nil => simp
  | cons entry rest ih =>
    obtain ⟨first, distinct⟩ := List.nodup_cons.mp distinct
    have new := fresh entry List.mem_cons_self
    have unknown : g.nodes.find? entry.1 = none := Table.findAbsent.mpr new
    have added : (g.add entry.1 entry.2.describe entry.2.predecessors).nodes.entries
        = g.nodes.entries ++ [(entry.1, node entry.2)] := by
      simp only [Graph.add, unknown]
      exact Table.entriesPutFresh new _
    have apart : ∀ other ∈ rest,
        other.1 ∉ (g.add entry.1 entry.2.describe entry.2.predecessors).keys := by
      intro other member known
      simp only [Graph.keys, Table.keys, added, List.map_append, List.mem_append] at known
      rcases known with old | same
      · exact fresh other (List.mem_cons_of_mem _ member) old
      · have equal : other.1 = entry.1 := by simpa using same
        exact first (equal ▸ List.mem_map.mpr ⟨other, member, rfl⟩)
    rw [List.foldl_cons, ih distinct apart, added]
    simp

theorem graphOfSteps (steps : Table String Step) :
    (graph steps).nodes.entries = steps.entries.map (fun entry => (entry.1, node entry.2)) := by
  rw [graph, graphEntries steps.distinct (fun _ _ => List.not_mem_nil)]
  rfl

theorem graphKeys (steps : Table String Step) : (graph steps).keys = steps.keys := by
  simp [Graph.keys, Table.keys, graphOfSteps]

theorem graphNode {steps : Table String Step} {key : String} {s : Step}
    (found : steps.find? key = some s) : (graph steps).nodes.find? key = some (node s) := by
  rw [Table.findPresent, graphOfSteps]
  exact List.mem_map.mpr ⟨(key, s), Table.findPresent.mp found, rfl⟩

section Arranged

variable {registry : Registry} {roots : List String} {steps : Table String Step} {plan : Plan}

theorem arrangedOrder (ok : arrange steps = .ok plan) :
    ∃ order, (graph steps).traverse = .ok order ∧ plan.steps = order.filterMap steps.find? := by
  obtain ⟨order, traversed, last⟩ := Outcome.bindOk.mp ok
  cases last
  exact ⟨order, traversed, rfl⟩

theorem foundKeys (filed : ∀ key s, steps.find? key = some s → s.key = key) {order : List String}
    (inside : ∀ key ∈ order, key ∈ steps.keys) :
    (order.filterMap steps.find?).map Step.key = order := by
  induction order with
  | nil => rfl
  | cons key rest ih =>
    obtain ⟨s, found⟩ := Table.keyFound.mp (inside key List.mem_cons_self)
    rw [List.filterMap_cons_some found, List.map_cons, filed key s found,
      ih fun other member => inside other (List.mem_cons_of_mem _ member)]

theorem arrangedKeys (inv : Expanding registry roots [] steps) (ok : arrange steps = .ok plan) :
    (graph steps).traverse = .ok plan.keys := by
  obtain ⟨order, traversed, listed⟩ := arrangedOrder ok
  have inside : ∀ key ∈ order, key ∈ steps.keys := fun key member =>
    graphKeys steps ▸ (Graph.traversedKeys traversed).subset member
  rw [keys, listed, foundKeys (fun key s found => (inv.filed key s found).1) inside]
  exact traversed

theorem arrangedMember (inv : Expanding registry roots [] steps) (ok : arrange steps = .ok plan)
    {s : Step} : s ∈ plan.steps ↔ steps.find? s.key = some s := by
  have traversed := arrangedKeys inv ok
  obtain ⟨order, same, listed⟩ := arrangedOrder ok
  rw [traversed] at same
  cases same
  rw [listed, List.mem_filterMap]
  constructor
  · intro kept
    obtain ⟨key, _, found⟩ := kept
    rw [(inv.filed key s found).1]
    exact found
  · intro found
    refine ⟨s.key, ?_, found⟩
    rw [(Graph.traversedKeys traversed).mem_iff, graphKeys]
    exact Table.keyFound.mpr ⟨s, found⟩

theorem arrangedValues (inv : Expanding registry roots [] steps) (ok : arrange steps = .ok plan)
    {s : Step} : s ∈ plan.steps ↔ s ∈ steps.values := by
  rw [arrangedMember inv ok, Table.valuesMember]
  constructor
  · exact fun found => ⟨_, found⟩
  · intro held
    obtain ⟨key, found⟩ := held
    rw [(inv.filed key s found).1]
    exact found

theorem arrangedMatched (inv : Expanding registry roots [] steps) (ok : arrange steps = .ok plan)
    {s : Step} (member : s ∈ plan.steps) : Matched registry s :=
  (inv.filed _ s ((arrangedMember inv ok).mp member)).2

theorem arrangedComplete (inv : Expanding registry roots [] steps) (ok : arrange steps = .ok plan)
    (key : String) : key ∈ plan.keys ↔ Reached plan.steps roots key := by
  rw [(Graph.traversedKeys (arrangedKeys inv ok)).mem_iff, graphKeys, expandedKeys inv]
  exact ⟨reachedSame fun s => (arrangedValues inv ok).mpr,
    reachedSame fun s => (arrangedValues inv ok).mp⟩

theorem arrangedEarlier (inv : Expanding registry roots [] steps) (ok : arrange steps = .ok plan)
    {before after : List Step} {s : Step} (split : plan.steps = before ++ s :: after) {key : String}
    (needed : key ∈ s.predecessors) : key ∈ before.map Step.key := by
  have member : s ∈ plan.steps := by simp [split]
  have order : plan.keys = before.map Step.key ++ s.key :: after.map Step.key := by
    simp [keys, split]
  have known : key ∈ (graph steps).keys := by
    rw [graphKeys]
    exact (inv.closed s ((arrangedValues inv ok).mp member) key needed).resolve_right (by simp)
  exact Graph.traversedEarlier (arrangedKeys inv ok) order
    (graphNode ((arrangedMember inv ok).mp member)) (Text.memExtend.mpr (.inr needed)) known

theorem arrangedSupplies (inv : Expanding registry roots [] steps) (ok : arrange steps = .ok plan)
    {s : Step} (member : s ∈ plan.steps) {request : Request}
    (needed : request.key ∈ s.predecessors) : plan.Supplies request request.key := by
  obtain ⟨before, after, split⟩ := List.append_of_mem member
  obtain ⟨d, earlier, same⟩ := List.mem_map.mp (arrangedEarlier inv ok split needed)
  exact ⟨rfl, d, by rw [split]; exact List.mem_append_left _ earlier, same⟩

end Arranged

def Resolves (registry : Registry) (targets : List RequestForm) (plan : Plan) : Prop :=
  ∃ fuel, resolveWithin fuel registry targets = some (.ok plan)

theorem resolvesWithinLimit {registry : Registry} {targets : List RequestForm} {plan : Plan}
    (ok : resolve registry targets = .ok plan) : Resolves registry targets plan := by
  refine ⟨limit, ?_⟩
  simp only [resolve] at ok
  cases within : resolveWithin limit registry targets with
  | none => rw [within] at ok; cases ok
  | some outcome =>
    rw [within, Option.getD_some] at ok
    rw [ok]

theorem resolvedOnce {registry : Registry} {targets : List RequestForm} {fuel more : Nat}
    {outcome other : Except Error Plan} (ended : resolveWithin fuel registry targets = some outcome)
    (reached : resolveWithin more registry targets = some other) : outcome = other := by
  simp only [resolveWithin] at ended reached
  split at ended
  · rename_i cause refused
    rw [refused] at reached
    exact Option.some.inj (ended.symm.trans reached)
  · rename_i queue queued
    rw [queued] at reached
    obtain ⟨steps, first, arranged⟩ := Option.map_eq_some_iff.mp ended
    obtain ⟨others, second, also⟩ := Option.map_eq_some_iff.mp reached
    have left := expandLonger more first
    have right := expandLonger fuel second
    rw [Nat.add_comm, left] at right
    rw [← arranged, ← also, Option.some.inj right]

theorem resolvedFrom {registry : Registry} {targets : List RequestForm} {plan : Plan}
    (resolves : Resolves registry targets plan) :
    ∃ requests steps, List.Forall₂ (fun form request => form.request = .ok request) targets requests ∧
      Expanding registry (rootKeys registry requests) [] steps ∧ arrange steps = .ok plan := by
  obtain ⟨fuel, ok⟩ := resolves
  simp only [resolveWithin] at ok
  split at ok
  · cases ok
  · rename_i asked queued
    obtain ⟨outcome, expanded, last⟩ := Option.map_eq_some_iff.mp ok
    obtain ⟨steps, done, arranged⟩ := Outcome.bindOk.mp last
    obtain ⟨_, _, queued⟩ := Outcome.bindOk.mp queued
    obtain ⟨requests, read, first⟩ := Outcome.bindOk.mp queued
    cases first
    have start := expandingStart registry (initial registry requests)
    have roots : (initial registry requests).map (·.request.key) = rootKeys registry requests := by
      simp [initial, rootKeys, Function.comp_def]
    rw [roots] at start
    refine ⟨requests, steps, ?_, expandedAll fuel start (done ▸ expanded), arranged⟩
    exact (Outcome.eachOk.mp read).imp fun _ _ => Outcome.mapErrorOk.mp

theorem requiredSupplied {registry : Registry} {roots : List String} {steps : Table String Step}
    {plan : Plan} (inv : Expanding registry roots [] steps) (ok : arrange steps = .ok plan)
    {s : Step} (member : s ∈ plan.steps) :
    ∃ requests, s.provider.required s.request.params = .ok requests ∧
      List.Forall₂ plan.Supplies requests s.dependencies := by
  obtain ⟨requests, required, listed⟩ := (arrangedMatched inv ok member).required
  refine ⟨requests, required, ?_⟩
  rw [listed, List.forall₂_map_right_iff, List.forall₂_same]
  intro request inside
  refine arrangedSupplies inv ok member (List.mem_append_left _ ?_)
  rw [listed]
  exact List.mem_map.mpr ⟨request, inside, rfl⟩

theorem optionalSupplied {registry : Registry} {roots : List String} {steps : Table String Step}
    {plan : Plan} (inv : Expanding registry roots [] steps) (ok : arrange steps = .ok plan)
    {s : Step} (member : s ∈ plan.steps) :
    ∃ requests, s.provider.optional s.request.params = .ok requests ∧
      List.Forall₂ (fun request place => (∃ key, place = some key ∧ plan.Supplies request key) ∨
        place = none ∧ registry.firstTaker request = none) requests s.optional := by
  obtain ⟨requests, optional, placed⟩ := (arrangedMatched inv ok member).optional
  obtain ⟨lengths, each⟩ := List.forall₂_iff_zip.mp placed
  refine ⟨requests, optional, List.forall₂_iff_zip.mpr ⟨lengths, ?_⟩⟩
  intro request place inside
  refine (each inside).imp_left fun kept => ⟨request.key, kept, ?_⟩
  refine arrangedSupplies inv ok member (List.mem_append_right _ ?_)
  exact List.mem_filterMap.mpr ⟨place, (List.of_mem_zip inside).2, kept⟩

theorem resolvedPlanSound {registry : Registry} {targets : List RequestForm} {plan : Plan}
    (resolves : Resolves registry targets plan) :
    ∃ requests, List.Forall₂ (fun form request => form.request = .ok request) targets requests ∧
      Sound registry requests plan := by
  obtain ⟨requests, steps, read, inv, arranged⟩ := resolvedFrom resolves
  refine ⟨requests, read, ?_⟩
  exact
    { distinct := Graph.traversedDistinct (arrangedKeys inv arranged)
      complete := arrangedComplete inv arranged
      provider := fun s member => (arrangedMatched inv arranged member).provider
      required := fun s member => requiredSupplied inv arranged member
      optional := fun s member => optionalSupplied inv arranged member
      ordered := fun before s after split key needed => arrangedEarlier inv arranged split needed }

namespace Sample

def page : Provider :=
  { name := "page", kind := "page"
    requires := fun _ => .ok [.bare "row", .bare "row"]
    optionallyRequires := fun _ => .ok [.bare "cache", .bare "store"]
    provide := fun _ deps => .done (.list deps) }

def refuser : Provider :=
  { name := "refuser", kind := "row", accepts := fun _ => .ok false
    provide := fun _ _ => .done .null }

def row : Provider :=
  { name := "row", kind := "row", requires := fun _ => .ok [.bare "store"]
    provide := fun _ deps => .done (.list deps) }

def store : Provider :=
  { name := "store", kind := "store", singleton := true, provide := fun _ _ => .done (.int 7) }

def registry : Registry :=
  { providers := [page, refuser, row, store]
    issued := [⟨⟨"row", .null⟩, "initial", true, none⟩, ⟨⟨"row", .null⟩, "test", true, none⟩,
      ⟨⟨"store", .null⟩, "test", true, some (.int 1)⟩] }

def plan : Plan :=
  ⟨[⟨store, ⟨"store", .null⟩, [], []⟩,
    ⟨row, ⟨"row", .null⟩, ["store::\x7b\x7d"], []⟩,
    ⟨page, ⟨"page", .null⟩, ["row::\x7b\x7d", "row::\x7b\x7d"], [none, some "store::\x7b\x7d"]⟩]⟩

theorem planResolved : Resolves registry [.bare "page"] plan :=
  ⟨20, rfl⟩

theorem planSound : Resolves registry [.bare "page"] plan ∧
    ∃ requests, List.Forall₂ (fun form request => RequestForm.request form = .ok request)
      [.bare "page"] requests ∧ Sound registry requests plan :=
  ⟨planResolved, resolvedPlanSound planResolved⟩

end Sample
end Codegen.Plan
