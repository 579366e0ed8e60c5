import Codegen.Execution
import Codegen.Proofs.Outcome
import Codegen.Proofs.Table

/-! Traces of executions: the calls that the steps of a plan make, one after another, each with what it
was given and what it answered. Whatever a provider does, only the executor changes the results. A
trace has no case for a result that is missing, so that steps have one only if all lookups succeed. -/
namespace Codegen

namespace Script

theorem runWithResults {call : Script → RunState → RunState × Except Error Value} {view : View}
    (frame : ∀ script state, (call script state).1.results = state.results) (script : Script)
    (state : RunState) : (runWith call view script state).1.results = state.results := by
  induction script generalizing state with
  | finish outcome => rfl
  | look next ih => exact ih view state
  | share act next ih => exact ih (act state.space).2 _
  | request kind params next ih =>
    simp only [runWith]
    split
    · rw [ih, frame]
    · exact ih _ state
  | offer kind handler next _ ih => exact ih _
  | note value next ih => exact ih _

theorem runResults (view : View) (depth : Nat) (script : Script) (state : RunState) :
    (run view depth script state).1.results = state.results := by
  induction depth generalizing script state with
  | zero => exact runWithResults (fun _ _ => rfl) script state
  | succ depth ih => exact runWithResults ih script state

end Script

structure Call where
  step : Step
  inputs : List Value
  before : RunState
  after : RunState
  answer : Except Error Value

structure Call.Made (services : Services) (depth : Nat) (c : Call) : Prop where
  found : c.step.inputs c.before.results = .ok c.inputs
  ran : (c.step.provider.provide c.step.request.params c.inputs).run
    (services.view c.step.provider) depth c.before = (c.after, c.answer)

theorem Call.madeResults {services : Services} {depth : Nat} {c : Call} (made : c.Made services depth) :
    c.after.results = c.before.results := by
  have frame := Script.runResults (services.view c.step.provider) depth
    (c.step.provider.provide c.step.request.params c.inputs) c.before
  rw [made.ran] at frame
  exact frame

def Call.stored (c : Call) (value : Value) : RunState :=
  { c.after with results := c.after.results.put c.step.key value }

def Call.failure (c : Call) (cause : Error) : Error :=
  .failed c.step.provider.name c.step.request.kind c.step.request.params cause

inductive Trace (services : Services) (depth : Nat) :
    List Step → RunState → List Call → RunState → Except Error Unit → Prop where
  | done (state) : Trace services depth [] state [] state (.ok ())
  | answered {c : Call} {value steps calls final outcome} (made : c.Made services depth)
      (answer : c.answer = .ok value)
      (next : Trace services depth steps (c.stored value) calls final outcome) :
      Trace services depth (c.step :: steps) c.before (c :: calls) final outcome
  | raised {c : Call} {cause steps} (made : c.Made services depth) (answer : c.answer = .error cause) :
      Trace services depth (c.step :: steps) c.before [c] c.after (.error (c.failure cause))

namespace Trace

variable {services : Services} {depth : Nat} {steps : List Step} {state final : RunState} {calls : List Call}
  {outcome : Except Error Unit}

theorem executed (trace : Trace services depth steps state calls final outcome) :
    Plan.executeSteps services depth steps state = (final, outcome) := by
  induction trace with
  | done => rfl
  | answered made answer _ ih =>
    simp only [Plan.executeSteps, Step.execute, made.found, made.ran, answer]
    exact ih
  | raised made answer =>
    simp only [Plan.executeSteps, Step.execute, made.found, made.ran, answer]
    rfl

theorem calledSteps (trace : Trace services depth steps state calls final outcome) :
    calls.map Call.step <+: steps := by
  induction trace with
  | done => exact List.prefix_rfl
  | answered _ _ _ ih => exact List.cons_prefix_cons.mpr ⟨rfl, ih⟩
  | raised => exact List.cons_prefix_cons.mpr ⟨rfl, List.nil_prefix⟩

theorem calledAll (trace : Trace services depth steps state calls final (.ok ())) :
    calls.map Call.step = steps := by
  generalize ended : Except.ok () = outcome at trace
  induction trace with
  | done => rfl
  | answered _ _ _ ih => rw [List.map_cons, ih ended]
  | raised => cases ended

theorem everyMade (trace : Trace services depth steps state calls final outcome) :
    ∀ c ∈ calls, c.Made services depth := by
  induction trace with
  | done => simp
  | answered made _ _ ih => exact List.forall_mem_cons.mpr ⟨made, ih⟩
  | raised made => exact List.forall_mem_cons.mpr ⟨made, by simp⟩

theorem stopsAtFailure {e : Error} (trace : Trace services depth steps state calls final (.error e)) :
    ∃ earlier last cause, calls = earlier ++ [last] ∧ final = last.after ∧
      (∀ c ∈ earlier, ∃ value, c.answer = .ok value) ∧
      last.answer = .error cause ∧ e = last.failure cause := by
  generalize ended : Except.error e = outcome at trace
  induction trace with
  | done => cases ended
  | answered _ answer _ ih =>
    obtain ⟨earlier, last, cause, split, stopped, fine, raised, failure⟩ := ih ended
    exact ⟨_ :: earlier, last, cause, by rw [split, List.cons_append], stopped,
      List.forall_mem_cons.mpr ⟨⟨_, answer⟩, fine⟩, raised, failure⟩
  | raised _ answer =>
    cases ended
    exact ⟨[], _, _, rfl, rfl, by simp, answer, rfl⟩

theorem storedAnswers (trace : Trace services depth steps state calls final (.ok ()))
    (distinct : (steps.map Step.key).Nodup) (fresh : ∀ s ∈ steps, s.key ∉ state.results.keys) :
    ∃ entries, final.results.entries = state.results.entries ++ entries ∧
      List.Forall₂ (fun (c : Call) entry => entry.1 = c.step.key ∧ c.answer = .ok entry.2)
        calls entries := by
  generalize ended : Except.ok () = outcome at trace
  induction trace with
  | done => exact ⟨[], by simp, .nil⟩
  | raised => cases ended
  | @answered c value rest calls final outcome made answer next ih =>
    obtain ⟨first, distinct⟩ := List.nodup_cons.mp distinct
    have unknown : c.step.key ∉ c.after.results.keys := by
      rw [Call.madeResults made]
      exact fresh c.step List.mem_cons_self
    have entries : (c.stored value).results.entries = c.before.results.entries
        ++ [(c.step.key, value)] := by
      rw [← Call.madeResults made]
      exact Table.entriesPutFresh unknown value
    have later : ∀ s ∈ rest, s.key ∉ (c.stored value).results.keys := by
      intro s member known
      rcases Table.memKeysPut.mp known with old | same
      · rw [Call.madeResults made] at old
        exact fresh s (List.mem_cons_of_mem _ member) old
      · exact first (same ▸ List.mem_map.mpr ⟨s, member, rfl⟩)
    obtain ⟨tail, stored, answers⟩ := ih distinct later ended
    exact ⟨(c.step.key, value) :: tail, by rw [stored, entries]; simp, .cons ⟨rfl, answer⟩ answers⟩

theorem storedKeys {results : Table String Value}
    (stored : List.Forall₂ (fun (c : Call) entry => entry.1 = c.step.key ∧ c.answer = .ok entry.2)
      calls results.entries) :
    results.keys = calls.map (fun c => c.step.key) := by
  symm
  refine List.forall₂_eq_eq_eq ▸ ?_
  rw [Table.keys, List.forall₂_map_left_iff, List.forall₂_map_right_iff]
  exact stored.imp fun _ _ entry => entry.1.symm

end Trace

namespace Step

theorem resultFound {results : Table String Value} {key : String} {value : Value} :
    result results key = .ok value ↔ results.find? key = some value := by
  unfold result
  cases results.find? key <;> simp

def Offered (results : Table String Value) (place : Option String) (value : Value) : Prop :=
  match place with
  | some key => results.find? key = some value
  | none => value = .null

theorem optionalOffered {results : Table String Value} {place : Option String} {value : Value} :
    optionalResult results place = .ok value ↔ Offered results place value := by
  cases place with
  | none => simp [optionalResult, Offered, eq_comm]
  | some key => exact resultFound

theorem inputsFound {s : Step} {results : Table String Value} {inputs : List Value} :
    s.inputs results = .ok inputs ↔ ∃ given offered, inputs = given ++ offered ∧
      List.Forall₂ (fun key value => results.find? key = some value) s.dependencies given ∧
      List.Forall₂ (Offered results) s.optional offered := by
  have required : ∀ given, s.dependencies.mapM (result results) = .ok given ↔
      List.Forall₂ (fun key value => results.find? key = some value) s.dependencies given := by
    simp only [Outcome.eachOk, resultFound, implies_true]
  have optional : ∀ offered, s.optional.mapM (optionalResult results) = .ok offered ↔
      List.Forall₂ (Offered results) s.optional offered := by
    simp only [Outcome.eachOk, optionalOffered, implies_true]
  simp only [Step.inputs, Outcome.bindOk, required, optional, Except.ok.injEq]
  constructor
  · intro both
    obtain ⟨given, first, offered, second, same⟩ := both
    exact ⟨given, offered, same.symm, first, second⟩
  · intro both
    obtain ⟨given, offered, same, first, second⟩ := both
    exact ⟨given, first, offered, second, same.symm⟩

theorem inputsReady {s : Step} {results : Table String Value}
    (ready : ∀ key ∈ s.predecessors, key ∈ results.keys) :
    ∃ inputs, s.inputs results = .ok inputs := by
  have answered : ∀ key ∈ s.dependencies, ∃ value, results.find? key = some value :=
    fun key member => Table.keyFound.mp (ready key (List.mem_append_left _ member))
  obtain ⟨given, required⟩ := Outcome.eachFound answered
  have available : ∀ place ∈ s.optional, ∃ value, Offered results place value := by
    intro place member
    cases place with
    | none => exact ⟨.null, rfl⟩
    | some key =>
      have needed : key ∈ s.predecessors :=
        List.mem_append_right _ (List.mem_filterMap.mpr ⟨some key, member, rfl⟩)
      exact Table.keyFound.mp (ready key needed)
  obtain ⟨offered, optional⟩ := Outcome.eachFound available
  exact ⟨given ++ offered, inputsFound.mpr ⟨given, offered, rfl, required, optional⟩⟩

end Step

theorem Trace.ofOrdered (services : Services) (depth : Nat) {steps : List Step} {state : RunState}
    (ordered : ∀ before s after, steps = before ++ s :: after → ∀ key ∈ s.predecessors,
      key ∈ state.results.keys ∨ key ∈ before.map Step.key) :
    ∃ calls final outcome, Trace services depth steps state calls final outcome := by
  induction steps generalizing state with
  | nil => exact ⟨[], state, .ok (), .done state⟩
  | cons s rest ih =>
    have ready : ∀ key ∈ s.predecessors, key ∈ state.results.keys := fun key needed =>
      (ordered [] s rest rfl key needed).resolve_right (by simp)
    obtain ⟨inputs, found⟩ := Step.inputsReady ready
    obtain ⟨⟨after, answer⟩, ran⟩ : ∃ pair, (s.provider.provide s.request.params inputs).run
        (services.view s.provider) depth state = pair := ⟨_, rfl⟩
    let c : Call := ⟨s, inputs, state, after, answer⟩
    have made : c.Made services depth := ⟨found, ran⟩
    cases outcome : answer with
    | error cause => exact ⟨[c], after, _, .raised made outcome⟩
    | ok value =>
      have later : ∀ before next behind, rest = before ++ next :: behind →
          ∀ key ∈ next.predecessors,
            key ∈ (c.stored value).results.keys ∨ key ∈ before.map Step.key := by
        intro before next behind split key needed
        have keys : (c.stored value).results.keys = (state.results.put s.key value).keys := by
          rw [← Call.madeResults made]; rfl
        rw [keys, Table.memKeysPut]
        rcases ordered (s :: before) next behind (by rw [split, List.cons_append]) key needed with
          known | earlier
        · exact .inl (.inl known)
        · rcases List.mem_cons.mp earlier with same | inside
          · exact .inl (.inr same)
          · exact .inr inside
      obtain ⟨calls, final, outcome', trace⟩ := ih later
      exact ⟨c :: calls, final, outcome', .answered made outcome trace⟩

end Codegen
