import Codegen.Plan
import Codegen.Warning

/-!
Execution of a plan. The steps run strictly in order and each result is kept under the key of its
request. A request that a provider makes while it runs goes to the handler that was last registered
for its kind, and otherwise to the results so far. The first failure ends the execution; if there is
none, the requests that were issued before are settled.
-/
namespace Codegen

structure Handler where
  answer : Value → Script
  plugin : String

structure Handlers where
  table : Table String Handler := Table.empty

namespace Handlers

def register (handlers : Handlers) (kind : String) (handler : Handler) :
    Handlers × Option Warning :=
  (⟨handlers.table.put kind handler⟩,
    (handlers.table.find? kind).map (fun old => .handlerReplaced kind handler.plugin old.plugin))

def get (handlers : Handlers) (kind : String) : Option Handler :=
  handlers.table.find? kind

def kinds (handlers : Handlers) : List String :=
  handlers.table.keys

end Handlers

structure RunState where
  space : Workspace := {}
  handlers : Handlers := {}
  results : Table String Value := Table.empty
  notes : List (String × Value) := []
  warnings : List Warning := []

structure Services where
  model : Model := {}
  fileRules : List FileRule := []
  defaultFile : Option String := none

def Services.view (services : Services) (p : Provider) : View :=
  { profile := p.toProfile, model := services.model, fileRules := services.fileRules
    defaultFile := services.defaultFile }

namespace RunState

def offer (state : RunState) (kind : String) (handler : Handler) : RunState :=
  let (handlers, warning) := state.handlers.register kind handler
  { state with handlers := handlers, warnings := state.warnings ++ warning.toList }

def cached (state : RunState) (request : Request) : Except Error Value :=
  match state.results.find? request.key with
  | some value => .ok value
  | none => .error (.pending request)

end RunState

namespace Script

def runWith (call : Script → RunState → RunState × Except Error Value) (view : View) :
    Script → RunState → RunState × Except Error Value
  | finish outcome, state => (state, outcome)
  | look next, state => runWith call view (next view) state
  | share act next, state =>
    let (space, answer) := act state.space
    runWith call view (next answer) { state with space := space }
  | request kind params next, state =>
    match state.handlers.get kind with
    | some handler =>
      let (state, answer) := call (handler.answer params) state
      runWith call view (next answer) state
    | none => runWith call view (next (state.cached ⟨kind, params⟩)) state
  | offer kind handler next, state =>
    runWith call view next (state.offer kind ⟨handler, view.profile.name⟩)
  | note value next, state =>
    runWith call view next { state with notes := state.notes ++ [(view.profile.name, value)] }

def run (view : View) : (depth : Nat) → Script → RunState → RunState × Except Error Value
  | 0 => runWith (fun _ state => (state, .error .exhausted)) view
  | depth + 1 => runWith (run view depth) view

def usualDepth : Nat := 495

end Script

namespace Step

def result (results : Table String Value) (key : String) : Except Error Value :=
  match results.find? key with
  | some value => .ok value
  | none => .error (.lostResult key)

def optionalResult (results : Table String Value) : Option String → Except Error Value
  | some key => result results key
  | none => .ok .null

def inputs (s : Step) (results : Table String Value) : Except Error (List Value) := do
  .ok ((← s.dependencies.mapM (result results)) ++ (← s.optional.mapM (optionalResult results)))

def execute (services : Services) (depth : Nat) (s : Step) (state : RunState) :
    RunState × Except Error Unit :=
  match s.inputs state.results with
  | .error e => (state, .error e)
  | .ok inputs =>
    let script := s.provider.provide s.request.params inputs
    match script.run (services.view s.provider) depth state with
    | (state, .ok value) => ({ state with results := state.results.put s.key value }, .ok ())
    | (state, .error cause) =>
      (state, .error (.failed s.provider.name s.request.kind s.request.params cause))

end Step

namespace Plan

def executeSteps (services : Services) (depth : Nat) :
    List Step → RunState → RunState × Except Error Unit
  | [], state => (state, .ok ())
  | s :: rest, state =>
    match s.execute services depth state with
    | (state, .ok ()) => executeSteps services depth rest state
    | (state, .error e) => (state, .error e)

def execute (plan : Plan) (registry : Registry) (services : Services)
    (depth : Nat := Script.usualDepth) : RunState × Registry × Except Error (Table String Value) :=
  match executeSteps services depth plan.steps {} with
  | (state, .ok ()) =>
    let (registry, outcome) := registry.settleAll state.results
    (state, registry, outcome.map (fun _ => state.results))
  | (state, .error e) => (state, registry, .error e)

end Plan
end Codegen
