import Codegen.Table
import Codegen.Text.Lines
import Codegen.Value

/-!
References to what a generated file imports, and the import statements they become.

A reference names a symbol by its capability, or a module directly; it becomes a statement when every
provider has run. Statements of one module are merged: names are kept once in the order of their first
occurrence, and the first default and the first namespace win. Merged statements are sorted by module.
-/
namespace Codegen

structure SymbolRef where
  capability : String
  entity : String := ""
  shape : Option String := none
  deriving DecidableEq, Repr, Inhabited

structure ModuleRef where
  source : String
  names : List String := []
  types : List String := []
  default : Option String := none
  namespaceAlias : Option String := none
  deriving DecidableEq, Repr, Inhabited

inductive ImportRef where
  | symbol (ref : SymbolRef)
  | package (ref : ModuleRef)
  | relative (ref : ModuleRef)
  | other (value : Value)
  deriving Inhabited, Repr

structure Statement where
  source : String
  named : List String := []
  types : List String := []
  default : Option String := none
  namespaceAlias : Option String := none
  deriving DecidableEq, Repr, Inhabited

structure UnresolvedRef where
  capability : String
  entity : String
  shape : Option String
  plugin : String
  file : String
  deriving DecidableEq, Repr, Inhabited

def UnresolvedRef.describe (ref : UnresolvedRef) : String :=
  Text.join "/" ([ref.capability, ref.entity, ref.shape.getD ""].filter (· ≠ ""))

def ModuleRef.statement (ref : ModuleRef) : Statement :=
  { source := ref.source, named := ref.names, types := ref.types
    default := ref.default, namespaceAlias := ref.namespaceAlias }

namespace Statement

def isEmpty (s : Statement) : Bool :=
  s.named.isEmpty && s.types.isEmpty && s.default.isNone && s.namespaceAlias.isNone

def absorb (s next : Statement) : Statement :=
  { s with
    named := Text.extend s.named next.named
    types := Text.extend s.types next.types
    default := s.default.or next.default
    namespaceAlias := s.namespaceAlias.or next.namespaceAlias }

def gather (table : Table String Statement) (next : Statement) : Table String Statement :=
  let known := (table.find? next.source).getD { source := next.source }
  table.put next.source (known.absorb next)

def merge (statements : List Statement) : List Statement :=
  (statements.foldl gather Table.empty).values.mergeSort
    (fun a b => Text.precedes a.source b.source)

end Statement
end Codegen
