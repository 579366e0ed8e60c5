import Codegen.Provider

/-!
The providers of a run in the order of their registration, which decides between several that accept
a request, and the requests that were issued before the run. A request that was issued is handed an
index under which its result can be read once the run has settled it, exactly once.
-/
namespace Codegen

structure Deferred where
  request : Request
  requestedBy : String := "initial"
  waiting : Bool := true
  result : Option Value := none
  deriving Inhabited, Repr

structure Registry where
  providers : List Provider := []
  issued : List Deferred := []

namespace Deferred

def read (d : Deferred) : Except Error Value :=
  match d.result with
  | some value => .ok value
  | none => .error (.pending d.request)

def settle (d : Deferred) (value : Value) : Except Error Deferred :=
  match d.result with
  | some _ => .error (.settled d.request)
  | none => .ok { d with result := some value }

def take (results : Table String Value) (d : Deferred) : Except Error Deferred :=
  match results.find? d.request.key with
  | some value => if d.waiting ∧ d.result.isNone then d.settle value else .ok d
  | none => .ok d

def takeAll (results : Table String Value) : List Deferred → List Deferred × Except Error Unit
  | [] => ([], .ok ())
  | d :: rest =>
    match d.take results with
    | .error e => (d :: rest, .error e)
    | .ok d =>
      let (rest, outcome) := takeAll results rest
      (d :: rest, outcome)

end Deferred

namespace Registry

def register (registry : Registry) (p : Provider) : Except Error Registry :=
  if registry.providers.any (·.name = p.name) then .error (.duplicateProvider p.name)
  else .ok { registry with providers := registry.providers ++ [p] }

def ofList (providers : List Provider) : Except Error Registry :=
  providers.foldlM register {}

def ofKind (registry : Registry) (kind : String) : List Provider :=
  registry.providers.filter (·.kind = kind)

def singletons (registry : Registry) : List Provider :=
  registry.providers.filter (·.singleton)

def issue (registry : Registry) (request : Request) (requestedBy : String) : Registry :=
  { registry with issued := registry.issued ++ [{ request := request, requestedBy := requestedBy }] }

def pending (registry : Registry) : List Deferred :=
  registry.issued.filter (·.waiting)

def clearPending (registry : Registry) : Registry :=
  { registry with issued := registry.issued.map (fun d => { d with waiting := false }) }

def settleAll (registry : Registry) (results : Table String Value) :
    Registry × Except Error Unit :=
  let (issued, outcome) := Deferred.takeAll results registry.issued
  ({ registry with issued := issued }, outcome)

def checkSingletons (registry : Registry) : Except Error Unit :=
  match registry.singletons.find? (fun p => 1 < (registry.ofKind p.kind).length) with
  | some p => .error (.ambiguous p.kind ((registry.ofKind p.kind).map (·.name)))
  | none => .ok ()

def candidates (registry : Registry) (request : Request) : Except Error (List Provider) :=
  (registry.ofKind request.kind).filterM (fun p => p.accepts request.params)

def choose (registry : Registry) (request : Request) : Except Error (Option Provider) := do
  let found ← registry.candidates request
  if 1 < found.length ∧ found.any (·.singleton) then
    .error (.ambiguous request.kind (found.map (·.name)))
  else .ok found.head?

end Registry
end Codegen
