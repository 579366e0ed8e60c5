import Codegen.Registry

/-!
Plans. The requests of a run are expanded breadth first through what the matched providers require;
requests with one key are one step. The steps are then ordered so that each comes after those that it
depends on. An optional requirement that no provider accepts leaves an empty place.
-/
namespace Codegen

structure Step where
  provider : Provider
  request : Request
  dependencies : List String := []
  /-- The keys of the optional steps, with empty places for those without a provider. -/
  optional : List (Option String) := []

structure Plan where
  steps : List Step := []

structure Asked where
  request : Request
  requestedBy : String := "initial"
  deriving Inhabited, Repr

namespace Step

def key (s : Step) : String :=
  s.request.key

def describe (s : Step) : String :=
  s.request.describe

def report (s : Step) : String :=
  "ResolvedRequest(" ++ s.describe ++ " by " ++ s.provider.name ++ ")"

def predecessors (s : Step) : List String :=
  s.dependencies ++ s.optional.filterMap id

end Step

namespace Plan

def keys (plan : Plan) : List String :=
  plan.steps.map Step.key

def describe (plan : Plan) : List String :=
  plan.steps.map (fun s => s.describe ++ " <- " ++ s.provider.name)

def initial (registry : Registry) (targets : List Request) : List Asked :=
  targets.map (fun r => ⟨r, "initial"⟩)
    ++ registry.pending.map (fun d => ⟨d.request, d.requestedBy⟩)
    ++ registry.singletons.map (fun p => ⟨p.singletonRequest, "initial"⟩)

def optionalPlace (registry : Registry) (planned : List String) (request : Request) :
    Except Error (Option String) := do
  if request.key ∈ planned then .ok (some request.key)
  else .ok ((← registry.choose request).map (fun _ => request.key))

structure Expansion where
  step : Step
  asked : List Asked

def expandOne (registry : Registry) (planned : List String) (asked : Asked) :
    Except Error Expansion := do
  let request := asked.request
  match ← registry.choose request with
  | none => .error (.notFound request.kind request.params asked.requestedBy)
  | some p =>
    let required ← p.required request.params
    let optional ← p.optional request.params
    let places ← optional.mapM (optionalPlace registry (planned ++ [request.key]))
    let wanted := ((optional.zip places).filter (·.2.isSome)).map (·.1)
    .ok
      { step :=
          { provider := p, request := request
            dependencies := required.map Request.key, optional := places }
        asked := (required ++ wanted).map (⟨·, p.name⟩) }

def expand (registry : Registry) :
    (fuel : Nat) → List Asked → Table String Step → Option (Except Error (Table String Step))
  | _, [], steps => some (.ok steps)
  | 0, _ :: _, _ => none
  | fuel + 1, asked :: rest, steps =>
    if steps.contains asked.request.key then expand registry fuel rest steps
    else match expandOne registry steps.keys asked with
      | .error e => some (.error e)
      | .ok found =>
        expand registry fuel (rest ++ found.asked) (steps.put asked.request.key found.step)

def graph (steps : Table String Step) : Graph :=
  steps.entries.foldl (fun g entry => g.add entry.1 entry.2.describe entry.2.predecessors) {}

def arrange (steps : Table String Step) : Except Error Plan := do
  .ok ⟨(← (graph steps).traverse).filterMap steps.find?⟩

def queue (registry : Registry) (targets : List RequestForm) : Except Error (List Asked) := do
  registry.checkSingletons
  .ok (initial registry (← targets.mapM Provider.readForm))

/-- The plan for targets; nothing if more than `fuel` requests had to be taken from the queue. -/
def resolveWithin (fuel : Nat) (registry : Registry) (targets : List RequestForm) :
    Option (Except Error Plan) :=
  match queue registry targets with
  | .error e => some (.error e)
  | .ok asked => (expand registry fuel asked Table.empty).map (fun steps => steps.bind arrange)

def limit : Nat := 1000000

def resolve (registry : Registry) (targets : List RequestForm) : Except Error Plan :=
  (resolveWithin limit registry targets).getD (.error .exhausted)

end Plan
end Codegen
