import Codegen.Error
import Codegen.Symbol

/-!
The symbols that were exported so far, each under its key with the plugin that registered it, and the
methods that a plugin generated for an entity. A key belongs to its first registration: the same
symbol from the same plugin may come again, anything else is a conflict.
-/
namespace Codegen

structure Registration where
  symbol : Symbol
  plugin : String
  deriving DecidableEq, Repr, Inhabited

structure EntityMethods where
  entity : String
  methods : List Value
  plugin : String
  importPath : String := ""
  deriving Inhabited, Repr

structure Collision where
  symbol : String
  file : String
  plugins : List String
  deriving DecidableEq, Repr, Inhabited

structure SymbolRegistry where
  symbols : Table String Registration := Table.empty
  methods : Table String EntityMethods := Table.empty
  deriving Inhabited

namespace SymbolRegistry

def register (registry : SymbolRegistry) (s : Symbol) (plugin : String) :
    Except Error SymbolRegistry :=
  let symbol := s.normalized
  match registry.symbols.find? symbol.key with
  | none => .ok { registry with symbols := registry.symbols.put symbol.key ⟨symbol, plugin⟩ }
  | some present =>
    if present = ⟨symbol, plugin⟩ then .ok registry
    else .error (.symbolConflict symbol.key [present.plugin, plugin] (some symbol.file))

def resolve (registry : SymbolRegistry) (ref : SymbolRef) : Option Symbol :=
  (registry.symbols.find? ref.key).map (·.symbol)

def contains (registry : SymbolRegistry) (ref : SymbolRef) : Bool :=
  registry.symbols.contains ref.key

def pluginFor (registry : SymbolRegistry) (s : Symbol) : Option String :=
  (registry.symbols.find? s.key).map (·.plugin)

def all (registry : SymbolRegistry) : List Symbol :=
  registry.symbols.values.map (·.symbol)

def under (start key : String) : Bool :=
  let exact := Text.dropTrailing ':' start
  key = exact || Text.startsWith key (exact ++ ":")

def query (registry : SymbolRegistry) (start : String) : List Symbol :=
  (registry.symbols.entries.filter (fun entry => under start entry.1)).map (·.2.symbol)

def entities (registry : SymbolRegistry) (start : String) : List String :=
  Text.sorted (Text.unique (((registry.query start).map (·.entity)).filter (· ≠ "")))

def registerMethods (registry : SymbolRegistry) (entity : String) (methods : List Value)
    (plugin importPath : String) : Except Error SymbolRegistry :=
  match registry.methods.find? entity with
  | none =>
    let entry := ⟨entity, methods, plugin, Path.normalize importPath⟩
    .ok { registry with methods := registry.methods.put entity entry }
  | some present =>
    if present.plugin ≠ plugin then
      .error (.symbolConflict ("methods:" ++ entity) [present.plugin, plugin] none)
    else
      let entry :=
        { present with
          methods := present.methods ++ methods
          importPath := if importPath = "" then present.importPath else Path.normalize importPath }
      .ok { registry with methods := registry.methods.put entity entry }

def methodsOf (registry : SymbolRegistry) (entity : String) : Option EntityMethods :=
  registry.methods.find? entity

def entitiesWithMethods (registry : SymbolRegistry) : List String :=
  Text.sorted ((registry.methods.entries.filter (fun entry => !entry.2.methods.isEmpty)).map (·.1))

def definers (registry : SymbolRegistry) : Table (String × String) (List String) :=
  registry.symbols.values.foldl
    (fun table (entry : Registration) =>
      let place := (entry.symbol.file, entry.symbol.name)
      table.put place (Text.extend ((table.find? place).getD []) [entry.plugin]))
    Table.empty

def collisions (registry : SymbolRegistry) : List Collision :=
  (registry.definers.entries.filter (fun entry => 1 < entry.2.length)).map
    (fun entry => ⟨entry.1.2, entry.1.1, entry.2⟩)

end SymbolRegistry
end Codegen
