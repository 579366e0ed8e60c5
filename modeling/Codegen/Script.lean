import Codegen.Emission.Builder
import Codegen.Model
import Codegen.Placement

/-!
The code of a provider as a tree of interactions. At each node the provider asks for something that
its run can give, and goes on with the answer: its view of the run, a change of the shared workspace,
a resource, or the registration of a handler. It ends with a result or a failure.
-/
namespace Codegen

structure Profile where
  name : String
  kind : String
  singleton : Bool := false
  singletonParams : Value := .null
  fileDefaults : List FileRule := []

structure View where
  profile : Profile
  model : Model := {}
  fileRules : List FileRule := []
  defaultFile : Option String := none

def View.filePath (view : View) (placed : Placed) : Except Error String :=
  placed.path (FileRule.merge view.profile.fileDefaults view.fileRules) view.defaultFile

inductive Script where
  | finish (outcome : Except Error Value)
  | look (next : View → Script)
  | share (act : Workspace → Workspace × Except Error Value) (next : Except Error Value → Script)
  | request (kind : String) (params : Value) (next : Except Error Value → Script)
  | offer (kind : String) (handler : Value → Script) (next : Script)
  | note (value : Value) (next : Script)

namespace Script

instance : Inhabited Script := ⟨finish (.ok .null)⟩

def done (value : Value) : Script :=
  finish (.ok value)

def fail (e : Error) : Script :=
  finish (.error e)

def bind (script : Script) (next : Except Error Value → Script) : Script :=
  match script with
  | finish outcome => next outcome
  | look more => look (fun view => bind (more view) next)
  | share act more => share act (fun answer => bind (more answer) next)
  | request kind params more => request kind params (fun answer => bind (more answer) next)
  | offer kind handler more => offer kind handler (bind more next)
  | note value more => note value (bind more next)

def andThen (next : Value → Script) : Except Error Value → Script
  | .ok value => next value
  | .error e => fail e

end Script
end Codegen
