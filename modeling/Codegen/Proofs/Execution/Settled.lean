import Codegen.Proofs.Execution.Trace
import Codegen.Proofs.Plan.Sound

/-! Execution of a resolved plan. No lookup misses a result, each step is called once and in order with
the results of what its provider required, and the first failure ends everything. If there is none,
the requests that were issued before are settled, and no settlement comes a second time. -/
namespace Codegen

inductive Deferred.Settled (results : Table String Value) : Deferred → Deferred → Prop where
  | taken {d : Deferred} {value} (waiting : d.waiting = true) (unsettled : d.result = none)
      (found : results.find? d.request.key = some value) :
      Settled results d { d with result := some value }
  | kept {d : Deferred} (closed : d.waiting = false ∨ d.result ≠ none) : Settled results d d

theorem Deferred.takeSettled {results : Table String Value} {d : Deferred}
    (found : d.waiting = true → d.result = none → d.request.key ∈ results.keys) :
    ∃ after, d.take results = .ok after ∧ Settled results d after := by
  by_cases wanted : d.waiting = true ∧ d.result = none
  · obtain ⟨value, held⟩ := Table.keyFound.mp (found wanted.1 wanted.2)
    exact ⟨{ d with result := some value }, by simp [take, held, wanted, settle],
      .taken wanted.1 wanted.2 held⟩
  · have closed : d.waiting = false ∨ d.result ≠ none := by
      rw [← Bool.not_eq_true]
      exact Decidable.not_and_iff_or_not.mp wanted
    refine ⟨d, ?_, .kept closed⟩
    have guard : ¬(d.waiting = true ∧ d.result.isNone = true) := by simpa using wanted
    unfold take
    cases results.find? d.request.key with
    | none => rfl
    | some value => exact if_neg guard

theorem Deferred.takeAllSettled {results : Table String Value} {issued : List Deferred}
    (found : ∀ d ∈ issued, d.waiting = true → d.result = none → d.request.key ∈ results.keys) :
    ∃ after, takeAll results issued = (after, .ok ()) ∧
      List.Forall₂ (Settled results) issued after := by
  induction issued with
  | nil => exact ⟨[], rfl, .nil⟩
  | cons d rest ih =>
    obtain ⟨next, taken, settled⟩ := takeSettled (found d List.mem_cons_self)
    obtain ⟨others, all, tail⟩ := ih fun other member => found other (List.mem_cons_of_mem _ member)
    exact ⟨next :: others, by simp [takeAll, taken, all], .cons settled tail⟩

def Call.Supplied (registry : Registry) (c : Call) : Prop :=
  ∃ required optional given offered,
    c.step.provider.required c.step.request.params = .ok required ∧
    c.step.provider.optional c.step.request.params = .ok optional ∧
    c.inputs = given ++ offered ∧
    List.Forall₂ (fun request value => c.before.results.find? (Request.key request) = some value)
      required given ∧
    List.Forall₂ (Plan.Placed registry) optional c.step.optional ∧
    List.Forall₂ (Step.Offered c.before.results) c.step.optional offered

theorem Call.madeSupplied {registry : Registry} {services : Services} {depth : Nat} {c : Call}
    (made : c.Made services depth) (matched : Plan.Matched registry c.step) : c.Supplied registry := by
  obtain ⟨given, offered, inputs, first, second⟩ := Step.inputsFound.mp made.found
  obtain ⟨required, hr, listed⟩ := matched.required
  obtain ⟨optional, ho, placed⟩ := matched.optional
  rw [listed, List.forall₂_map_left_iff] at first
  exact ⟨required, optional, given, offered, hr, ho, inputs, first, placed, second⟩

namespace Plan

structure Completed (plan : Plan) (registry : Registry) (services : Services) (depth : Nat)
    (calls : List Call) (state : RunState) (issued : List Deferred) (results : Table String Value) : Prop where
  trace : Trace services depth plan.steps {} calls state (.ok ())
  called : calls.map Call.step = plan.steps
  keys : results.keys = plan.keys
  stored : List.Forall₂ (fun (c : Call) entry => entry.1 = c.step.key ∧ c.answer = .ok entry.2)
    calls results.entries
  settled : List.Forall₂ (Deferred.Settled results) registry.issued issued
  executed : plan.execute registry services depth = (state, { registry with issued := issued }, .ok results)

structure Stopped (plan : Plan) (registry : Registry) (services : Services) (depth : Nat)
    (earlier : List Call) (last : Call) (cause : Error) : Prop where
  trace : Trace services depth plan.steps {} (earlier ++ [last]) last.after (.error (last.failure cause))
  called : (earlier ++ [last]).map Call.step <+: plan.steps
  fine : ∀ c ∈ earlier, ∃ value, c.answer = .ok value
  raised : last.answer = .error cause
  executed : plan.execute registry services depth = (last.after, registry, .error (last.failure cause))

def Executes (plan : Plan) (registry : Registry) (services : Services) (depth : Nat) : Prop :=
  (∃ calls state issued results, (∀ c ∈ calls, c.Supplied registry) ∧
    plan.Completed registry services depth calls state issued results) ∨
  (∃ earlier last cause, (∀ c ∈ earlier ++ [last], c.Supplied registry) ∧
    plan.Stopped registry services depth earlier last cause)

section Arranged

variable {registry : Registry} {steps : Table String Step} {plan : Plan} {services : Services} {depth : Nat}
  {calls : List Call} {state : RunState}

theorem callsSupplied {roots : List String} {outcome : Except Error Unit}
    (inv : Expanding registry roots [] steps) (ok : arrange steps = .ok plan)
    (trace : Trace services depth plan.steps {} calls state outcome) :
    ∀ c ∈ calls, c.Supplied registry := by
  intro c member
  have inside : c.step ∈ plan.steps :=
    trace.calledSteps.subset (List.mem_map.mpr ⟨c, member, rfl⟩)
  exact Call.madeSupplied (trace.everyMade c member) (arrangedMatched inv ok inside)

theorem traceCompleted {requests : List Request}
    (inv : Expanding registry (rootKeys registry requests) [] steps) (ok : arrange steps = .ok plan)
    (trace : Trace services depth plan.steps {} calls state (.ok ())) :
    ∃ issued results, plan.Completed registry services depth calls state issued results := by
  have distinct : (plan.steps.map Step.key).Nodup := Graph.traversedDistinct (arrangedKeys inv ok)
  obtain ⟨entries, held, stored⟩ := trace.storedAnswers distinct (fun _ _ => List.not_mem_nil)
  have same : state.results.entries = entries := held
  rw [← same] at stored
  have keys : state.results.keys = plan.keys := by
    rw [Trace.storedKeys stored, Plan.keys, ← trace.calledAll, List.map_map]
    rfl
  have found : ∀ d ∈ registry.issued, d.waiting = true → d.result = none →
      d.request.key ∈ state.results.keys := by
    intro d member waiting _
    rw [keys, arrangedComplete inv ok]
    refine .root (List.mem_append_left _ (List.mem_append_right _ ?_))
    exact List.mem_map.mpr ⟨d, List.mem_filter.mpr ⟨member, waiting⟩, rfl⟩
  obtain ⟨issued, taken, settled⟩ := Deferred.takeAllSettled found
  refine ⟨issued, state.results, ⟨trace, trace.calledAll, keys, stored, settled, ?_⟩⟩
  simp [execute, trace.executed, Registry.settleAll, taken, Except.map]

theorem traceStopped {e : Error} (trace : Trace services depth plan.steps {} calls state (.error e)) :
    ∃ earlier last cause, calls = earlier ++ [last] ∧
      plan.Stopped registry services depth earlier last cause := by
  obtain ⟨earlier, last, cause, split, final, fine, raised, failure⟩ := trace.stopsAtFailure
  subst split failure final
  refine ⟨earlier, last, cause, rfl, ⟨trace, trace.calledSteps, fine, raised, ?_⟩⟩
  simp [execute, trace.executed]

end Arranged

theorem resolvedPlanExecutes {registry : Registry} {targets : List RequestForm} {plan : Plan}
    (resolves : Resolves registry targets plan) (services : Services) (depth : Nat) :
    plan.Executes registry services depth := by
  obtain ⟨requests, steps, _, inv, arranged⟩ := resolvedFrom resolves
  have ordered : ∀ before s after, plan.steps = before ++ s :: after → ∀ key ∈ s.predecessors,
      key ∈ ({} : RunState).results.keys ∨ key ∈ before.map Step.key :=
    fun before s after split key needed => .inr (arrangedEarlier inv arranged split needed)
  obtain ⟨calls, state, outcome, trace⟩ := Trace.ofOrdered services depth ordered
  have supplied := callsSupplied inv arranged trace
  cases outcome with
  | ok =>
    obtain ⟨issued, results, completed⟩ := traceCompleted inv arranged trace
    exact .inl ⟨calls, state, issued, results, supplied, completed⟩
  | error e =>
    obtain ⟨earlier, last, cause, split, stopped⟩ := traceStopped trace
    exact .inr ⟨earlier, last, cause, split ▸ supplied, stopped⟩

theorem Sample.planExecutes : Resolves registry [.bare "page"] plan ∧
    plan.Executes registry {} Script.usualDepth ∧
    ((plan.execute registry {}).2.1.issued.map (·.result))
      = [some (.list [.int 7]), some (.list [.int 7]), some (.int 1)] :=
  ⟨planResolved, resolvedPlanExecutes planResolved {} _, rfl⟩

end Plan
end Codegen
