import Codegen.Declaration
import Codegen.Script

/-!
Providers: units that satisfy requests of one kind. What a provider needs depends on the parameters of
the request. It may decline parameters, and a singleton runs once without being asked.
-/
namespace Codegen

structure Provider extends Profile where
  className : String := "_FunctionProvider"
  accepts : Value → Except Error Bool := fun _ => .ok true
  requires : Value → Except Error (List RequestForm) := fun _ => .ok []
  optionallyRequires : Value → Except Error (List RequestForm) := fun _ => .ok []
  declares : List Declaration := []
  provide : Value → List Value → Script

namespace Provider

def readForm (form : RequestForm) : Except Error Request :=
  form.request.mapError Error.shape

def required (p : Provider) (params : Value) : Except Error (List Request) := do
  (← p.requires params).mapM readForm

def optional (p : Provider) (params : Value) : Except Error (List Request) := do
  (← p.optionallyRequires params).mapM readForm

def report (p : Provider) : String :=
  "<" ++ p.className ++ " " ++ Text.quoted p.name ++ " kind=" ++ Text.quoted p.kind ++ ">"

def claims (p : Provider) : List Claimed :=
  p.declares.map (⟨·, p.name⟩)

def singletonRequest (p : Provider) : Request :=
  ⟨p.kind, p.singletonParams⟩

def semanticModel : Provider :=
  { name := "semantic-model"
    kind := "semantic-model"
    singleton := true
    className := "SemanticModelProvider"
    provide := fun _ _ => .look (fun view => .done view.model.value) }

end Provider

def checkDeclarations (providers : List Provider) : Except Error (List Declaration) :=
  Declaration.check (providers.flatMap Provider.claims)

end Codegen
