import Codegen.Error
import Codegen.Text.Words

/-!
Placement of symbols in files. The first rule whose pattern a capability begins with decides; a rule
that overrides a pattern takes the place of all default rules for that pattern and goes to the end.
-/
namespace Codegen

structure NamingContext where
  name : String
  entityName : String
  folderName : String
  capability : String
  variant : Option String := none
  schema : String := ""
  deriving DecidableEq, Repr, Inhabited

structure FileRule where
  pattern : String
  naming : NamingContext → String
  outputDir : String := ""

structure Placed where
  capability : String
  name : String
  entity : String := ""
  variant : Option String := none
  schema : String := ""
  deriving DecidableEq, Repr, Inhabited

namespace FileRule

def matching (rule : FileRule) (capability : String) : Bool :=
  Text.startsWith capability rule.pattern

def fileFor (rule : FileRule) (context : NamingContext) : String :=
  if rule.outputDir = "" then rule.naming context
  else Text.dropTrailing '/' rule.outputDir ++ "/" ++ rule.naming context

def merge (defaults overrides : List FileRule) : List FileRule :=
  defaults.filter (fun rule => rule.pattern ∉ overrides.map (·.pattern)) ++ overrides

end FileRule

namespace Placed

def context (p : Placed) : NamingContext :=
  let segments := Text.split ':' p.capability
  let entity := if p.entity = "" then segments[1]?.getD "" else p.entity
  { name := p.name
    entityName := entity
    folderName := Text.snakeCase entity
    capability := p.capability
    variant := p.variant.or segments[2]?
    schema := p.schema }

def path (p : Placed) (rules : List FileRule) (defaultFile : Option String) : Except Error String :=
  match rules.find? (·.matching p.capability) with
  | some rule => .ok (rule.fileFor p.context)
  | none =>
    match defaultFile.filter (· ≠ "") with
    | some file => .ok file
    | none => .error (.noRule p.capability)

end Placed
end Codegen
