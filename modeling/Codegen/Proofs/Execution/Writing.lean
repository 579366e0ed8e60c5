import Codegen.Proofs.Emission.History
import Codegen.Proofs.Execution.Trace

/-! Providers that write files through builders, the only way to the buffer that a run gives them.
Whatever else such a provider does, it changes the buffer by writes alone, and so do the handlers that
it offers; after an execution the buffer holds what a history of writes left. -/
namespace Codegen

namespace Emissions

def Follows (e next : Emissions) : Prop :=
  ∃ writes : List Write, next = writes.foldl Write.apply e

theorem followsSame (e : Emissions) : Follows e e :=
  ⟨[], rfl⟩

theorem followsTrans {e middle next : Emissions} (first : Follows e middle) (second : Follows middle next) :
    Follows e next := by
  obtain ⟨sooner, rfl⟩ := first
  obtain ⟨later, rfl⟩ := second
  exact ⟨sooner ++ later, List.foldl_append.symm⟩

end Emissions

open Emissions (Follows followsSame followsTrans)

def Builds (act : Workspace → Workspace × Except Error Value) : Prop :=
  ∀ space, Follows space.emissions (act space).1.emissions

namespace Script

def Writing : Script → Prop
  | finish _ => True
  | look next => ∀ view, (next view).Writing
  | share act next => Builds act ∧ ∀ answer, (next answer).Writing
  | request _ _ next => ∀ answer, (next answer).Writing
  | offer _ handler next => (∀ params, (handler params).Writing) ∧ next.Writing
  | note _ next => next.Writing

theorem bindWriting {script : Script} {next : Except Error Value → Script} (writing : script.Writing)
    (each : ∀ answer, (next answer).Writing) : (script.bind next).Writing := by
  induction script with
  | finish outcome => exact each outcome
  | look more ih => exact fun view => ih view (writing view)
  | share act more ih => exact ⟨writing.1, fun answer => ih answer (writing.2 answer)⟩
  | request kind params more ih => exact fun answer => ih answer (writing answer)
  | offer kind handler more _ ih => exact ⟨writing.1, ih writing.2⟩
  | note value more ih => exact ih writing

theorem andThenWriting {next : Value → Script} (each : ∀ value, (next value).Writing)
    (answer : Except Error Value) : (andThen next answer).Writing := by
  cases answer with
  | error e => trivial
  | ok value => exact each value

end Script

namespace Builder

theorem deliverFollows (b : Builder) (append : Bool) (e : Emissions) : Follows e (b.deliver append e) := by
  unfold deliver
  cases b.raw with
  | none =>
    exact ⟨[.draft
      { path := b.path, fragments := b.fragments, plugin := b.plugin, header := b.headerText
        imports := b.imports }], rfl⟩
  | some raw =>
    let text : TextWrite := ⟨b.path, b.headerText.getD "" ++ raw, b.plugin⟩
    cases append with
    | true => exact ⟨[.append text], rfl⟩
    | false => exact ⟨[.emit text], rfl⟩

theorem settleSpace (b : Builder) (space : Workspace) (next : Except Error Builder) :
    (b.settle space next).2.1 = space := by
  cases next <;> rfl

theorem applyFollows (b : Builder) (space : Workspace) (call : Call) :
    Follows space.emissions (b.apply space call).2.1.emissions := by
  cases call with
  | header text | addImport ref => exact followsSame _
  | fragments part | text content =>
    simp only [apply, settleSpace]
    exact followsSame _
  | emit append =>
    simp only [apply, emit]
    split
    · exact followsSame _
    · split
      · exact followsSame _
      · split
        · exact followsSame _
        · exact b.deliverFollows append space.emissions

theorem applyAllFollows (calls : List Call) (b : Builder) (space : Workspace) :
    Follows space.emissions (applyAll calls b space).2.1.emissions := by
  induction calls generalizing b space with
  | nil => exact followsSame _
  | cons call rest ih =>
    have first := b.applyFollows space call
    simp only [applyAll]
    split
    · rename_i next middle ok
      rw [ok] at first
      exact followsTrans first (ih next middle)
    · exact first

theorem callsBuild (path plugin : String) (calls : List Call)
    (answer : Except Error Unit → Except Error Value) :
    Builds (fun space =>
      let (_, space, outcome) := applyAll calls (start path plugin) space
      (space, answer outcome)) :=
  fun space => applyAllFollows calls (start path plugin) space

end Builder

theorem symbolsBuild (act : SymbolRegistry → SymbolRegistry × Except Error Value) :
    Builds (fun space => ({ space with symbols := (act space.symbols).1 }, (act space.symbols).2)) :=
  fun space => followsSame space.emissions

def Provider.Writing (p : Provider) : Prop :=
  ∀ params inputs, (p.provide params inputs).Writing

def Registry.Writing (registry : Registry) : Prop :=
  ∀ p ∈ registry.providers, p.Writing

structure RunState.Written (state : RunState) : Prop where
  buffer : Follows {} state.space.emissions
  handlers : ∀ kind handler, state.handlers.get kind = some handler →
    ∀ params, (handler.answer params).Writing

namespace RunState

variable {state : RunState}

theorem writtenShared (written : state.Written) {act : Workspace → Workspace × Except Error Value}
    (builds : Builds act) : { state with space := (act state.space).1 : RunState }.Written :=
  ⟨followsTrans written.buffer (builds state.space), written.handlers⟩

theorem writtenOffered (written : state.Written) {handler : Handler}
    (writing : ∀ params, (handler.answer params).Writing) (kind : String) :
    (state.offer kind handler).Written := by
  refine ⟨written.buffer, fun other found held => ?_⟩
  have table : (state.handlers.table.put kind handler).find? other = some found := held
  rw [Table.findPut] at table
  split at table
  · cases table
    exact writing
  · exact written.handlers other found table

end RunState

namespace Script

theorem runWithWritten {call : Script → RunState → RunState × Except Error Value} {view : View}
    (frame : ∀ script state, script.Writing → state.Written → (call script state).1.Written)
    {script : Script} {state : RunState} (writing : script.Writing) (written : state.Written) :
    (runWith call view script state).1.Written := by
  induction script generalizing state with
  | finish outcome => exact written
  | look next ih => exact ih view (writing view) written
  | share act next ih => exact ih _ (writing.2 _) (RunState.writtenShared written writing.1)
  | request kind params next ih =>
    simp only [runWith]
    split
    · rename_i handler held
      exact ih _ (writing _) (frame _ _ (written.handlers kind handler held params) written)
    · exact ih _ (writing _) written
  | offer kind handler next _ ih => exact ih writing.2 (RunState.writtenOffered written writing.1 kind)
  | note value next ih => exact ih writing ⟨written.buffer, written.handlers⟩

theorem runWritten (view : View) (depth : Nat) {script : Script} {state : RunState}
    (writing : script.Writing) (written : state.Written) : (run view depth script state).1.Written := by
  induction depth generalizing script state with
  | zero => exact runWithWritten (fun _ _ _ kept => kept) writing written
  | succ depth ih => exact runWithWritten (fun _ _ => ih) writing written

end Script

namespace Plan

variable {services : Services} {depth : Nat} {steps : List Step} {state final : RunState}

theorem stepWritten {s : Step} (writing : s.provider.Writing) (written : state.Written) :
    (s.execute services depth state).1.Written := by
  simp only [Step.execute]
  split
  · exact written
  · rename_i inputs found
    have kept := Script.runWritten (services.view s.provider) depth
      (writing s.request.params inputs) written
    split
    · rename_i after value ran
      rw [ran] at kept
      exact ⟨kept.buffer, kept.handlers⟩
    · rename_i after cause ran
      rw [ran] at kept
      exact kept

theorem stepsWritten (writing : ∀ s ∈ steps, s.provider.Writing) (written : state.Written) :
    (executeSteps services depth steps state).1.Written := by
  induction steps generalizing state with
  | nil => exact written
  | cons s rest ih =>
    have kept : (s.execute services depth state).1.Written :=
      stepWritten (writing s List.mem_cons_self) written
    simp only [executeSteps]
    split
    · rename_i next ok
      rw [ok] at kept
      exact ih (fun other member => writing other (List.mem_cons_of_mem _ member)) kept
    · rename_i next cause failed
      rw [failed] at kept
      exact kept

theorem executedWritten {plan : Plan} {registry after : Registry} {outcome : Except Error (Table String Value)}
    (writing : ∀ s ∈ plan.steps, s.provider.Writing)
    (executed : plan.execute registry services depth = (state, after, outcome)) : state.Written := by
  have none : ({} : RunState).Written :=
    ⟨followsSame {}, fun kind handler held => by cases held⟩
  have kept : (executeSteps services depth plan.steps {}).1.Written := stepsWritten writing none
  unfold execute at executed
  split at executed
  · rename_i final ok
    rw [ok] at kept
    cases executed
    exact kept
  · rename_i final cause failed
    rw [failed] at kept
    cases executed
    exact kept

end Plan
end Codegen
