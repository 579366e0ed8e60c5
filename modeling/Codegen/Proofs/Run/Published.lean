import Codegen.Proofs.Execution.Writing
import Codegen.Proofs.Plan.Sound
import Codegen.Proofs.Run.Finished
import Codegen.Proofs.Symbol.Collision

/-! What a run publishes. A run returns if all its phases complete and it has no fault: no path with two
writers of text or with both text and a draft, no name of a file that two plugins define, and where
references are strict none that is unresolved. Its files are then those that were written, and paths
with text alone have just the text that was written. -/
namespace Codegen

namespace Run

open History (Shared Mixed textPaths draftPaths written)

structure Planned (input : RunInput) (plan : Plan) : Prop where
  declared : ∃ declarations, checkDeclarations input.registry.providers = .ok declarations
  resolved : Plan.Resolves input.registry input.targets plan

def proceed (input : RunInput) : Except Error Plan → RunTrace × Except Error RunResult
  | .error e => ({ registry := input.registry }, .error e)
  | .ok plan =>
    match plan.execute input.registry (services input) input.depth with
    | (state, registry, .error e) => ({ registry := registry, state := state }, .error e)
    | (state, registry, .ok results) => conclude input plan registry state results

def Returns (input : RunInput) (trace : RunTrace) (result : RunResult) : Prop :=
  ∃ plan, Planned input plan ∧ proceed input (.ok plan) = (trace, .ok result)

structure Reaches (input : RunInput) (state : RunState) (result : RunResult) : Prop where
  planned : Planned input result.plan
  executed : ∃ registry, result.plan.execute input.registry (services input) input.depth =
    (state, registry, .ok result.results)
  finished : ∃ tool, finish input state.space {} = (result.space, tool, .ok ())

structure Faultless (settings : Settings) (writes : List Write) (result : RunResult) : Prop where
  single : ∀ path, ¬Shared writes path
  apart : ∀ path, ¬Mixed writes path
  symbols : ¬SymbolRegistry.Colliding result.space.symbols.symbols.values
  resolved : settings.strictReferences.truthy = true → result.unresolved = []

structure Published (writes : List Write) (result : RunResult) : Prop where
  once : (result.files.map Prod.fst).Nodup
  paths : ∀ path, path ∈ result.files.map Prod.fst ↔ path ∈ textPaths writes ∨ path ∈ draftPaths writes
  texts : ∀ path ∈ textPaths writes, path ∉ draftPaths writes → ∃ content plugin,
    (written writes).files.find? path = some ⟨path, content, plugin⟩ ∧ (path, content) ∈ result.files

theorem runProceeds (input : RunInput) : run input = proceed input (makePlan input) := by
  unfold run proceed
  cases makePlan input <;> rfl

theorem runReturns {input : RunInput} {trace : RunTrace} {result : RunResult}
    (ok : run input = (trace, .ok result)) : Returns input trace result := by
  rw [runProceeds] at ok
  cases made : makePlan input with
  | error e =>
    rw [made] at ok
    cases ok
  | ok plan =>
    rw [made] at ok
    obtain ⟨declarations, declared, resolved⟩ := Outcome.bindOk.mp made
    exact ⟨plan, ⟨⟨declarations, declared⟩, Plan.resolvesWithinLimit resolved⟩, ok⟩

theorem returnsRun {input : RunInput} {trace : RunTrace} {result : RunResult}
    (returns : Returns input trace result) : run input = (trace, .ok result) ∨
      Plan.resolveWithin Plan.limit input.registry input.targets = none := by
  obtain ⟨plan, ⟨⟨declarations, declared⟩, fuel, resolved⟩, ok⟩ := returns
  cases limited : Plan.resolveWithin Plan.limit input.registry input.targets with
  | none => exact .inr rfl
  | some outcome =>
    have made : makePlan input = .ok plan := by
      rw [makePlan, declared, Plan.resolve, limited, Plan.resolvedOnce limited resolved]
      rfl
    exact .inl (by rw [runProceeds, made, ok])

theorem returnsSame {input : RunInput} {trace other : RunTrace} {result found : RunResult}
    (returns : Returns input trace result) (also : Returns input other found) :
    trace = other ∧ result = found := by
  obtain ⟨plan, planned, ok⟩ := returns
  obtain ⟨plan', planned', ok'⟩ := also
  obtain ⟨fuel, resolved⟩ := planned.resolved
  obtain ⟨more, resolved'⟩ := planned'.resolved
  cases Plan.resolvedOnce resolved resolved'
  rw [ok] at ok'
  cases ok'
  exact ⟨rfl, rfl⟩

theorem checksPassed {settings : Settings} {space : Workspace} : checkOutcome settings space = .ok () ↔
    (settings.strictReferences.truthy = true → space.emissions.unresolved = []) ∧
      space.emissions.validate = .ok () ∧ ¬SymbolRegistry.Colliding space.symbols.symbols.values := by
  have symbols : checkSymbols space.symbols = .ok () ↔
      ¬SymbolRegistry.Colliding space.symbols.symbols.values := by
    rw [← SymbolRegistry.collisionsNone, checkSymbols]
    cases space.symbols.collisions <;> simp
  rw [← symbols]
  unfold checkOutcome
  split
  · rename_i unresolved
    exact iff_of_false (fun ok => by cases ok) fun passed => unresolved.1 (passed.1 unresolved.2)
  · rename_i resolved
    have lenient : settings.strictReferences.truthy = true → space.emissions.unresolved = [] := by
      intro strict
      by_contra unresolved
      exact resolved ⟨unresolved, strict⟩
    rw [Outcome.bindOk]
    constructor
    · intro passed
      obtain ⟨_, valid, checked⟩ := passed
      exact ⟨lenient, valid, checked⟩
    · intro passed
      obtain ⟨_, valid, checked⟩ := passed
      exact ⟨(), valid, checked⟩

theorem returnsReached {input : RunInput} {trace : RunTrace} {result : RunResult}
    (returns : Returns input trace result) :
    ∃ state, Reaches input state result ∧ checkOutcome input.settings result.space = .ok () := by
  obtain ⟨plan, planned, ok⟩ := returns
  simp only [proceed] at ok
  split at ok
  · cases ok
  · rename_i state registry results executed
    simp only [conclude] at ok
    split at ok
    · cases ok
    · rename_i finished
      obtain ⟨_, passed, rfl⟩ := Outcome.mapOk.mp (Prod.mk.inj ok).2
      exact ⟨state, ⟨planned, ⟨registry, executed⟩, _, Prod.ext rfl (Prod.ext rfl finished)⟩, passed⟩

theorem reachedReturns {input : RunInput} {state : RunState} {result : RunResult}
    (reaches : Reaches input state result) (passed : checkOutcome input.settings result.space = .ok ()) :
    ∃ trace, Returns input trace result := by
  obtain ⟨planned, ⟨registry, executed⟩, tool, finished⟩ := reaches
  have ok : ∃ trace, proceed input (.ok result.plan) = (trace, .ok result) := by
    simp only [proceed, executed, conclude, finished, passed, Except.map]
    exact ⟨_, rfl⟩
  obtain ⟨trace, ok⟩ := ok
  exact ⟨trace, result.plan, planned, ok⟩

section Reached

variable {input : RunInput} {state : RunState} {result : RunResult} {writes : List Write}

/- The buffer right after finalizing, before texts are retouched. -/
theorem reachedFinalized (reaches : Reaches input state result)
    (held : state.space.emissions = written writes) : ∃ after paths,
      (written writes).finalize input.serializer state.space.symbols = (after, .ok paths) ∧
        Emissions.Retouched (draftPaths writes) after result.space.emissions := by
  obtain ⟨_, _, tool, finished⟩ := reaches
  cases finishedRun finished with
  | @files emissions paths finalized symbols retouched =>
    rw [held] at finalized retouched
    rw [Emissions.allDrafts, History.draftPathsFiled] at retouched
    exact ⟨emissions, paths, finalized, retouched⟩

theorem faultlessPassed (reaches : Reaches input state result)
    (held : state.space.emissions = written writes) :
    checkOutcome input.settings result.space = .ok () ↔ Faultless input.settings writes result := by
  obtain ⟨after, paths, completed, retouched⟩ := reachedFinalized reaches held
  rw [checksPassed, Emissions.retouchedValid retouched,
    History.verdictClear (History.verdictCompleted completed)]
  constructor
  · intro passed
    obtain ⟨resolved, clear, symbols⟩ := passed
    exact ⟨fun path => (clear path).1, fun path => (clear path).2, symbols, resolved⟩
  · intro faultless
    obtain ⟨single, apart, symbols, resolved⟩ := faultless
    exact ⟨resolved, fun path => ⟨single path, apart path⟩, symbols⟩

theorem reachedPublished (reaches : Reaches input state result)
    (held : state.space.emissions = written writes) : Published writes result := by
  obtain ⟨after, paths, completed, retouched⟩ := reachedFinalized reaches held
  have placed := History.finalizedPlaced completed
  have keyed (path : String) (file : File)
      (found : result.space.emissions.files.find? path = some file) : file.path = path := by
    obtain ⟨old, holds, same⟩ := retouched.placed path file found
    exact same.trans ((placed path).1 old holds)
  have keys : result.files.map Prod.fst = result.space.emissions.files.keys := by
    rw [← Table.valuesKeyed keyed, RunResult.files, List.map_map]
    rfl
  refine ⟨?_, fun path => ?_, fun path text other => ?_⟩
  · rw [keys]
    exact result.space.emissions.files.distinct
  · rw [keys, retouched.keys]
    exact (placed path).2
  · obtain ⟨last, finalized, rfl, _⟩ := History.finalizedRun completed
    obtain ⟨file, found⟩ := History.textFound.mpr text
    have kept : result.space.emissions.files.find? path = some file := by
      rw [retouched.others path other, ← found]
      exact finalized.others path (History.draftPathsFiled ▸ other)
    obtain ⟨rfl, _⟩ := (History.recordedRun writes).owned path file found
    refine ⟨file.content, file.plugin, found, ?_⟩
    exact List.mem_map.mpr ⟨file, Table.valuesMember.mpr ⟨_, kept⟩, rfl⟩

end Reached

section Strict

variable {input : RunInput} {strict lax : Value} {result : RunResult}

def strictly (input : RunInput) (strict : Value) : RunInput :=
  { input with settings := { input.settings with strictReferences := strict } }

/- Only the last checks look at whether references are strict. -/
theorem reachesStrictly {state : RunState} (reaches : Reaches (strictly input strict) state result)
    (other : Value) : Reaches (strictly input other) state result :=
  ⟨⟨reaches.planned.declared, reaches.planned.resolved⟩, reaches.executed, reaches.finished⟩

theorem laxReturns {trace : RunTrace} (yes : strict.truthy = true) (no : lax.truthy = false)
    (returns : Returns (strictly input strict) trace result) :
    result.unresolved = [] ∧ ∃ other, Returns (strictly input lax) other result := by
  obtain ⟨state, reaches, passed⟩ := returnsReached returns
  obtain ⟨resolved, valid, symbols⟩ := checksPassed.mp passed
  have lenient : checkOutcome (strictly input lax).settings result.space = .ok () :=
    checksPassed.mpr ⟨fun truthy => absurd truthy (by simp [strictly, no]), valid, symbols⟩
  exact ⟨resolved yes, reachedReturns (reachesStrictly reaches lax) lenient⟩

theorem strictReturns {trace : RunTrace} (returns : Returns (strictly input lax) trace result)
    (resolved : result.unresolved = []) : ∃ other, Returns (strictly input strict) other result := by
  obtain ⟨state, reaches, passed⟩ := returnsReached returns
  obtain ⟨_, valid, symbols⟩ := checksPassed.mp passed
  exact reachedReturns (reachesStrictly reaches strict) (checksPassed.mpr ⟨fun _ => resolved, valid, symbols⟩)

end Strict

theorem stepsFromRegistry {input : RunInput} {plan : Plan} (planned : Planned input plan)
    (writing : input.registry.Writing) : ∀ s ∈ plan.steps, s.provider.Writing := by
  obtain ⟨requests, steps, _, inv, arranged⟩ := Plan.resolvedFrom planned.resolved
  intro s member
  exact writing _ (List.mem_of_find?_eq_some (Plan.arrangedMatched inv arranged member).provider)

structure Publishes (input : RunInput) : Prop where
  run : ∀ trace result, run input = (trace, .ok result) → Returns input trace result
  limit : ∀ trace result, Returns input trace result → Run.run input = (trace, .ok result) ∨
    Plan.resolveWithin Plan.limit input.registry input.targets = none
  returned : ∀ trace result, Returns input trace result → ∃ state, Reaches input state result ∧
    (∃ writes, state.space.emissions = written writes) ∧
      ∀ writes, state.space.emissions = written writes →
        Faultless input.settings writes result ∧ Published writes result
  faultless : ∀ state result writes, Reaches input state result →
    state.space.emissions = written writes → Faultless input.settings writes result →
      ∃ trace, Returns input trace result
  strict : ∀ yes no : Value, yes.truthy = true → no.truthy = false →
    ((∃ trace result, Returns (strictly input yes) trace result) ↔
      ∃ trace result, Returns (strictly input no) trace result ∧ result.unresolved = [])
  same : ∀ yes no : Value, yes.truthy = true → no.truthy = false →
    ∀ trace result other found, Returns (strictly input yes) trace result →
      Returns (strictly input no) other found → result.files = found.files

theorem runPublishes {input : RunInput} (writing : input.registry.Writing) : Publishes input where
  run _ _ := runReturns
  limit _ _ := returnsRun
  returned trace result returns := by
    obtain ⟨state, reaches, passed⟩ := returnsReached returns
    obtain ⟨registry, executed⟩ := reaches.executed
    have kept := Plan.executedWritten (stepsFromRegistry reaches.planned writing) executed
    refine ⟨state, reaches, kept.buffer, fun writes held => ⟨?_, reachedPublished reaches held⟩⟩
    exact (faultlessPassed reaches held).mp passed
  faultless state result writes reaches held clear :=
    reachedReturns reaches ((faultlessPassed reaches held).mpr clear)
  strict _ _ truthy falsy := by
    constructor
    · intro returned
      obtain ⟨trace, result, returns⟩ := returned
      obtain ⟨resolved, other, also⟩ := laxReturns truthy falsy returns
      exact ⟨other, result, also, resolved⟩
    · intro returned
      obtain ⟨trace, result, returns, resolved⟩ := returned
      obtain ⟨other, also⟩ := strictReturns returns resolved
      exact ⟨other, result, also⟩
  same _ _ truthy falsy trace result other found returns also := by
    obtain ⟨_, again, lenient⟩ := laxReturns truthy falsy returns
    rw [(returnsSame lenient also).2]

namespace Sample

def build (path : String) (calls : List Builder.Call) : Script :=
  .share
    (fun space =>
      let (_, space, outcome) := Builder.applyAll calls (Builder.start path "pages") space
      (space, outcome.map (fun _ => .null)))
    .finish

def registering (s : Symbol) (symbols : SymbolRegistry) : SymbolRegistry × Except Error Value :=
  match symbols.register s "pages" with
  | .ok next => (next, .ok .null)
  | .error e => (symbols, .error e)

def define (s : Symbol) : Script :=
  .share (fun space => ({ space with symbols := (registering s space.symbols).1 },
    (registering s space.symbols).2)) .finish

def pages : Provider :=
  { name := "pages", kind := "pages"
    provide := fun _ _ =>
      (build "./a.txt" [.text "raw", .emit false]).bind <| Script.andThen fun _ =>
        (define { name := "x", file := "b.py", capability := "value" }).bind <| Script.andThen fun _ =>
          build "b.py" [.fragments { fragments := [.text "x = 1"] }, .emit false] }

def input : RunInput :=
  { registry := { providers := [pages] }, targets := [.bare "pages"] }

theorem buildWriting {path : String} {calls : List Builder.Call} : (build path calls).Writing :=
  ⟨Builder.callsBuild path "pages" calls _, fun _ => trivial⟩

theorem defineWriting {s : Symbol} : (define s).Writing :=
  ⟨symbolsBuild (registering s), fun _ => trivial⟩

theorem pagesWriting : input.registry.Writing := by
  intro p member params inputs
  cases List.mem_singleton.mp member
  refine Script.bindWriting buildWriting (Script.andThenWriting fun _ => ?_)
  exact Script.bindWriting defineWriting (Script.andThenWriting fun _ => buildWriting)

theorem pagesPublished : Publishes input ∧ ∃ trace result, run input = (trace, .ok result) ∧
    result.files = [("a.txt", "raw"), ("b.py", Banner.render ["pages"] .null ++ "x = 1\n")] := by
  have files : (run input).2.toOption.map RunResult.files =
      some [("a.txt", "raw"), ("b.py", Banner.render ["pages"] .null ++ "x = 1\n")] := by
    decide +kernel
  refine ⟨runPublishes pagesWriting, ?_⟩
  cases ended : run input with
  | mk trace outcome =>
    rw [ended] at files
    cases outcome with
    | error e => cases files
    | ok result => exact ⟨trace, result, rfl, Option.some.inj files⟩

end Sample
end Run
end Codegen
