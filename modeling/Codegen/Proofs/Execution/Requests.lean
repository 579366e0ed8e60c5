import Codegen.Proofs.Execution.Asking
import Codegen.Proofs.Execution.Settled

/-! Requests that providers make while a plan is executed. Each goes to the handler that was offered last
for its kind in the whole run before it, and otherwise to the results of the steps before its own, which
no request changes. -/
namespace Codegen

open Event (latest)

namespace Call

variable {services : Services} {depth : Nat} {c : Call} {log : List Event}

def Logged (services : Services) (depth : Nat) (c : Call) (log : List Event) : Prop :=
  Script.Ran (services.view c.step.provider) depth
    (c.step.provider.provide c.step.request.params c.inputs) c.before log c.after c.answer

theorem madeLogged (made : c.Made services depth) : ∃! log, c.Logged services depth log := by
  obtain ⟨log, logged⟩ := Script.ranLogged made.ran
  exact ⟨log, logged, fun _ other => Script.ranUnique other logged⟩

theorem madeFurther (made : c.Made services depth)
    (free : ∀ log, c.Logged services depth log → Script.Free log) (more : Nat) :
    c.Made services (depth + more) := by
  obtain ⟨log, logged, _⟩ := madeLogged made
  exact ⟨made.found, Script.ranFurther logged (.inr (free log logged))⟩

def Stored (c : Call) (entry : String × Value) : Prop :=
  entry.1 = c.step.key ∧ c.answer = .ok entry.2

theorem storedFound {calls : List Call} {results : Table String Value} {key : String} {value : Value}
    (stored : List.Forall₂ Stored calls results.entries) :
    results.find? key = some value ↔ ∃ c ∈ calls, c.step.key = key ∧ c.answer = .ok value := by
  rw [Table.findPresent]
  generalize results.entries = entries at stored
  induction stored with
  | nil => simp
  | @cons c entry calls entries head tail ih =>
    obtain ⟨name, answer⟩ := head
    simp [List.mem_cons, ih, Prod.ext_iff, name, answer, eq_comm]

end Call

namespace Trace

variable {services : Services} {depth : Nat} {steps : List Step} {state final : RunState} {calls : List Call}
  {outcome : Except Error Unit}

theorem untilCall {earlier others : List Call} {c : Call}
    (trace : Trace services depth steps state calls final outcome) (split : calls = earlier ++ c :: others) :
    Trace services depth (earlier.map Call.step) state earlier c.before (.ok ()) := by
  induction trace generalizing earlier with
  | done => simp at split
  | @answered first value steps calls final outcome made answer next ih =>
    rcases List.cons_eq_append_iff.mp split with ⟨rfl, here⟩ | ⟨front, rfl, further⟩
    · cases here
      exact .done _
    · exact .answered made answer (ih further)
  | raised made answer =>
    rcases List.cons_eq_append_iff.mp split with ⟨rfl, here⟩ | ⟨front, rfl, further⟩
    · cases here
      exact .done _
    · simp at further

/- Where no request came upon the limit, each call is made to a greater depth as well. -/
theorem further (trace : Trace services depth steps state calls final outcome)
    (free : ∀ c ∈ calls, ∀ log, c.Logged services depth log → Script.Free log) (more : Nat) :
    Trace services (depth + more) steps state calls final outcome := by
  induction trace with
  | done => exact .done _
  | answered made answer _ ih =>
    obtain ⟨first, others⟩ := List.forall_mem_cons.mp free
    exact .answered (Call.madeFurther made first more) answer (ih others)
  | raised made answer => exact .raised (Call.madeFurther made (free _ List.mem_cons_self) more) answer

theorem offersLogged {past : List Event} {logs : List (List Event)}
    (trace : Trace services depth steps state calls final (.ok ()))
    (logged : List.Forall₂ (Call.Logged services depth) calls logs) (offers : state.Offers past) :
    final.Offers (past ++ logs.flatten) := by
  generalize ended : Except.ok () = outcome at trace
  induction trace generalizing past logs with
  | done =>
    cases logged
    simpa using offers
  | raised => cases ended
  | answered made answer next ih =>
    cases logged with
    | cons head tail =>
      have offered := Script.ranOffers head offers
      rw [List.flatten_cons, ← List.append_assoc]
      exact ih tail offered ended

end Trace

inductive Ask.Cached (earlier : List Call) (a : Ask) : Prop where
  | found {call value} (member : call ∈ earlier) (key : call.step.key = a.request.key)
      (only : ∀ other ∈ earlier, other.step.key = a.request.key → other = call)
      (stored : call.answer = .ok value) (answer : a.answer = .ok value)
  | missing (absent : ∀ call ∈ earlier, call.step.key ≠ a.request.key)
      (answer : a.answer = .error (.pending a.request))

theorem Ask.cachedStored {earlier : List Call} {a : Ask}
    (single : (earlier.map (fun c => c.step.key)).Nodup)
    (stored : List.Forall₂ Call.Stored earlier a.before.results.entries)
    (answer : a.answer = a.before.cached a.request) : a.Cached earlier := by
  cases found : a.before.results.find? a.request.key with
  | some value =>
    obtain ⟨call, member, key, held⟩ := (Call.storedFound stored).mp found
    refine .found member key (fun other inside same => ?_) held ?_
    · exact List.inj_on_of_nodup_map single inside member (same.trans key.symm)
    · rw [answer, RunState.cached, found]
  | none =>
    refine .missing (fun call member same => ?_) ?_
    · have absent := Table.findAbsent.mp found
      rw [Trace.storedKeys stored] at absent
      exact absent (List.mem_map.mpr ⟨call, member, same⟩)
    · rw [answer, RunState.cached, found]

structure Ask.Served (plan : Plan) (view : View) (earlier : List Call) (past later : List Event)
    (a : Ask) : Prop where
  answered : a.Within → a.Answered view past later
  cached : latest past a.kind = none → a.Cached earlier
  results : List.Forall₂ Call.Stored earlier a.before.results.entries
  unseen : ∀ s ∈ plan.steps.drop earlier.length, s.key ∉ a.before.results.keys
  kept : a.after.results = a.before.results

namespace Plan

/-- Every request of a run to a certain depth is served. Where all of them are within it, a greater depth
makes no difference. -/
def Serves (plan : Plan) (registry : Registry) (services : Services) (depth : Nat) : Prop :=
  ∃ calls final outcome, Trace services depth plan.steps {} calls final outcome ∧
    (plan.execute registry services depth).1 = final ∧
    (∀ c ∈ calls, ∃! log, c.Logged services depth log) ∧
    (∀ earlier c others, calls = earlier ++ c :: others →
      ∀ logs log, List.Forall₂ (Call.Logged services depth) earlier logs → c.Logged services depth log →
        ∀ sooner a later, log = sooner ++ .asked a :: later →
          a.Served plan (services.view c.step.provider) earlier (logs.flatten ++ sooner) later) ∧
    ((∀ c ∈ calls, ∀ log, c.Logged services depth log → Script.Free log) → ∀ more,
      plan.execute registry services (depth + more) = plan.execute registry services depth)

section Arranged

variable {plan : Plan} {services : Services} {depth : Nat} {calls earlier others : List Call} {c : Call}
  {final : RunState} {outcome : Except Error Unit}

theorem callResults (distinct : (plan.steps.map Step.key).Nodup)
    (trace : Trace services depth plan.steps {} calls final outcome) (split : calls = earlier ++ c :: others) :
    List.Forall₂ Call.Stored earlier c.before.results.entries ∧
      plan.keys = c.before.results.keys ++ (plan.steps.drop earlier.length).map Step.key := by
  have called : earlier.map Call.step <+: plan.steps := by
    have all := trace.calledSteps
    rw [split, List.map_append] at all
    exact (List.prefix_append _ _).trans all
  have single : ((earlier.map Call.step).map Step.key).Nodup :=
    distinct.sublist (called.sublist.map Step.key)
  obtain ⟨entries, held, stored⟩ :=
    (trace.untilCall split).storedAnswers single (fun _ _ => List.not_mem_nil)
  have same : c.before.results.entries = entries := held
  rw [← same] at stored
  refine ⟨stored, ?_⟩
  have parts := List.prefix_iff_eq_append.mp called
  rw [List.length_map] at parts
  calc plan.keys
      = (earlier.map Call.step ++ plan.steps.drop earlier.length).map Step.key := by rw [parts, keys]
    _ = c.before.results.keys ++ (plan.steps.drop earlier.length).map Step.key := by
        rw [Trace.storedKeys stored, List.map_append, List.map_map]
        rfl

theorem askServed (distinct : (plan.steps.map Step.key).Nodup)
    (trace : Trace services depth plan.steps {} calls final outcome) (split : calls = earlier ++ c :: others)
    {logs : List (List Event)} {log sooner later : List Event} {a : Ask}
    (logged : List.Forall₂ (Call.Logged services depth) earlier logs) (ran : c.Logged services depth log)
    (asked : log = sooner ++ .asked a :: later) :
    a.Served plan (services.view c.step.provider) earlier (logs.flatten ++ sooner) later := by
  have none : ({} : RunState).Offers [] := fun _ => rfl
  have offers := (trace.untilCall split).offersLogged logged none
  rw [List.nil_append] at offers
  obtain ⟨answered, offered, before, after⟩ := Script.ranAsks ran offers asked
  obtain ⟨stored, parts⟩ := callResults distinct trace split
  rw [← before] at stored parts
  have single : (a.before.results.keys ++ (plan.steps.drop earlier.length).map Step.key).Nodup :=
    parts ▸ distinct
  obtain ⟨front, _, apart⟩ := List.nodup_append.mp single
  refine ⟨answered, fun unhandled => ?_, stored, fun s member known => ?_, after.trans before.symm⟩
  · cases answered fun _ => (offered a.kind).trans unhandled with
    | called handled => rw [unhandled] at handled; cases handled
    | cached _ _ answer => exact Ask.cachedStored (Trace.storedKeys stored ▸ front) stored answer
  · exact apart _ known _ (List.mem_map.mpr ⟨s, member, rfl⟩) rfl

end Arranged

theorem requestsServed {registry : Registry} {targets : List RequestForm} {plan : Plan}
    (resolves : Resolves registry targets plan) (services : Services) (depth : Nat) :
    plan.Serves registry services depth := by
  obtain ⟨requests, steps, _, inv, arranged⟩ := resolvedFrom resolves
  have distinct : (plan.steps.map Step.key).Nodup := Graph.traversedDistinct (arrangedKeys inv arranged)
  have ordered : ∀ before s after, plan.steps = before ++ s :: after → ∀ key ∈ s.predecessors,
      key ∈ ({} : RunState).results.keys ∨ key ∈ before.map Step.key :=
    fun before s after split key needed => .inr (arrangedEarlier inv arranged split needed)
  obtain ⟨calls, final, outcome, trace⟩ := Trace.ofOrdered services depth ordered
  refine ⟨calls, final, outcome, trace, ?_, fun c member => Call.madeLogged (trace.everyMade c member), ?_,
    fun free more => ?_⟩
  · unfold execute
    rw [trace.executed]
    cases outcome <;> rfl
  · intro earlier c others split logs log logged ran sooner a later asked
    exact askServed distinct trace split logged ran asked
  · unfold execute
    rw [trace.executed, (trace.further free more).executed]

/- Schemas take what the step of types left before they offer handlers for that kind, the second of which
tells who asks; routes ask for types, and for themselves. -/
namespace Sample

def types : Provider :=
  { name := "types", kind := "types", provide := fun _ _ => .done (.text "T") }

def schemas : Provider :=
  { name := "schemas", kind := "schemas", requires := fun _ => .ok [.bare "types"]
    provide := fun _ _ => .request "types" .null (.andThen fun value =>
      .offer "types" .done (.offer "types"
        (fun params => .look fun view => .done (.list [.text view.profile.name, params]))
        (.done value))) }

def routes : Provider :=
  { name := "routes", kind := "routes", requires := fun _ => .ok [.bare "schemas"]
    provide := fun _ _ => .request "types" (.int 7) (.andThen fun value =>
      .request "routes" .null fun own => .done (.list [value, .bool own.isOk])) }

def askingRegistry : Registry :=
  { providers := [routes, schemas, types] }

def askingPlan : Plan :=
  ⟨[⟨types, ⟨"types", .null⟩, [], []⟩,
    ⟨schemas, ⟨"schemas", .null⟩, ["types::\x7b\x7d"], []⟩,
    ⟨routes, ⟨"routes", .null⟩, ["schemas::\x7b\x7d"], []⟩]⟩

theorem askingResolved : Resolves askingRegistry [.bare "routes"] askingPlan :=
  ⟨20, rfl⟩

theorem typesHandled : Resolves askingRegistry [.bare "routes"] askingPlan ∧
    askingPlan.Serves askingRegistry {} Script.usualDepth ∧
    (askingPlan.execute askingRegistry {}).1.results.values
      = [.text "T", .text "T", .list [.list [.text "routes", .int 7], .bool false]] :=
  ⟨askingResolved, requestsServed askingResolved {} _, rfl⟩

end Sample
end Plan
end Codegen
