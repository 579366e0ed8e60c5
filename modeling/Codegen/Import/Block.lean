import Codegen.Error
import Codegen.Source.Printer

/-!
The import block of a file. Compatibility imports come first, then absolute modules and relative ones,
both sorted. Names that serve for types only follow under a guard, for which the guarding name is
imported as well. An import of a module as a namespace takes the place of its other value imports.
-/
namespace Codegen

open Source (Alias Stmt)

namespace Statement

def guardName : String := "TYPE_CHECKING"
def guardModule : String := "typing"
def futureModule : String := "__future__"

def typeOnly (s : Statement) : List String :=
  s.types.filter (fun name => name ∉ s.named)

def splitSource (source : String) : Nat × Option String :=
  let module := Text.dropLeading '.' source
  (source.length - module.length, if module.isEmpty then none else some module)

def splitModule (module : String) : Option String × String :=
  let cs := module.toList
  let ending := (cs.reverse.takeWhile (· ≠ '.')).length
  let before := String.ofList (cs.take (cs.length - ending - 1))
  (if before.isEmpty then none else some before, String.ofList (cs.drop (cs.length - ending)))

def bindAs (name bound : String) : Alias :=
  ⟨name, if bound = name then none else some bound⟩

def bindModule (source bound : String) : Except Error Stmt :=
  match splitSource source with
  | (0, none) => .error .unnamedModule
  | (0, some module) => .ok (.importModules [bindAs module bound])
  | (level, none) => .ok (.importFrom level none [⟨bound, none⟩])
  | (level, some module) =>
    let (parent, leaf) := splitModule module
    .ok (.importFrom level parent [bindAs leaf bound])

def importNames (source : String) (names : List String) : Stmt :=
  let (level, module) := splitSource source
  .importFrom level module ((Text.sorted names).map (⟨·, none⟩))

def given (name : Option String) : Option String :=
  name.filter (fun name => !name.isEmpty)

def imports (s : Statement) : Except Error (List Stmt) := do
  match given s.namespaceAlias with
  | some bound => .ok [← bindModule s.source bound]
  | none =>
    let whole ← match given s.default with
      | some bound => (bindModule s.source bound).map ([·])
      | none => .ok []
    .ok (whole ++ if s.named.isEmpty then [] else [importNames s.source s.named])

def requireGuard (s : Statement) : Statement :=
  if guardName ∈ s.named then s else { s with named := s.named ++ [guardName] }

def withGuard : List Statement → List Statement
  | [] => [requireGuard { source := guardModule }]
  | s :: rest => if s.source = guardModule then requireGuard s :: rest else s :: withGuard rest

def isRelative (s : Statement) : Bool :=
  Text.startsWith s.source "."

def sortBySource (statements : List Statement) : List Statement :=
  statements.mergeSort (fun a b => Text.precedes a.source b.source)

def arrange (statements : List Statement) : List Statement :=
  statements.filter (fun s => s.source = futureModule)
    ++ sortBySource (statements.filter (fun s => s.source ≠ futureModule ∧ ¬ s.isRelative))
    ++ sortBySource (statements.filter isRelative)

def guarded (statements : List Statement) : List Statement :=
  (statements.filter (fun s => s.typeOnly ≠ [])).map
    (fun s => { source := s.source, named := s.typeOnly })

def block (statements : List Statement) : Except Error (List Stmt) := do
  let present := statements.filter (fun s => !s.isEmpty)
  let types := guarded present
  let values := if types.isEmpty then present else withGuard present
  let plain ← (arrange values).mapM imports
  if types.isEmpty then .ok plain.flatten
  else
    let hidden ← (sortBySource types).mapM imports
    .ok (plain.flatten ++ [.branch (.name guardName) hidden.flatten []])

def render (statements : List Statement) : Except Error String := do
  .ok (Text.join "\n" ((← block statements).map Stmt.text))

end Statement
end Codegen
