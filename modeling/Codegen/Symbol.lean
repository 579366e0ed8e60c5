import Codegen.Import
import Codegen.Path

/-!
Exported symbols. A symbol is found by its key, `kind:entity:shape`; a capability may already carry the
entity and the shape, and all spellings of one triple have the same key.
-/
namespace Codegen

structure Symbol where
  name : String
  file : String
  capability : String
  entity : String := ""
  shape : Option String := none
  isType : Bool := false
  isDefault : Bool := false
  deriving DecidableEq, Repr, Inhabited

namespace Symbol

def givenSegments (entity : String) (shape : Option String) : List String :=
  [entity, shape.getD ""].filter (· ≠ "")

def joinSegments (carried given : List String) : List String :=
  if given.isPrefixOf carried then carried
  else if carried.isPrefixOf given then given
  else carried ++ given

def keySegments (capability entity : String) (shape : Option String) : List String :=
  match Text.split ':' capability with
  | [] => givenSegments entity shape
  | kind :: carried => kind :: joinSegments carried (givenSegments entity shape)

def keyOf (capability entity : String) (shape : Option String) : String :=
  Text.join ":" (keySegments capability entity shape)

def key (s : Symbol) : String :=
  keyOf s.capability s.entity s.shape

def normalized (s : Symbol) : Symbol :=
  { s with file := Path.normalize s.file }

def importFor (s : Symbol) (file : String) : Option Statement :=
  if Path.normalize s.file = Path.normalize file then none
  else
    let source := Path.moduleFrom file s.file
    if s.isDefault then some { source := source, default := some s.name }
    else if s.isType then some { source := source, types := [s.name] }
    else some { source := source, named := [s.name] }

end Symbol

def SymbolRef.key (ref : SymbolRef) : String :=
  Symbol.keyOf ref.capability ref.entity ref.shape

end Codegen
