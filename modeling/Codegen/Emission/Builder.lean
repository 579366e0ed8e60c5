import Codegen.Emission.Buffer

/-!
A file in the hands of one plugin. It gathers headers, imports and either fragments or text, and is
emitted once: the symbols that its fragments export are registered first, then the file goes to the
buffer.
-/
namespace Codegen

structure Export where
  name : String
  capability : String
  entity : String := ""
  shape : Option String := none
  isType : Bool := false
  isDefault : Bool := false
  deriving DecidableEq, Repr, Inhabited

def Export.symbol (e : Export) (file : String) : Symbol :=
  { name := e.name, file := file, capability := e.capability, entity := e.entity
    shape := e.shape, isType := e.isType, isDefault := e.isDefault }

structure Contribution where
  fragments : List Fragment
  exports : List Export := []
  deriving Inhabited, Repr

structure Workspace where
  symbols : SymbolRegistry := {}
  emissions : Emissions := {}
  deriving Inhabited

structure Builder where
  path : String
  plugin : String
  headers : List String := []
  imports : List ImportRef := []
  fragments : List Fragment := []
  exports : List Export := []
  raw : Option String := none
  emitted : Bool := false
  deriving Inhabited, Repr

namespace Builder

def start (path plugin : String) : Builder :=
  { path := Path.normalize path, plugin := plugin }

def header (b : Builder) (text : String) : Builder :=
  { b with headers := b.headers ++ [text] }

def addImport (b : Builder) (ref : ImportRef) : Builder :=
  { b with imports := b.imports ++ [ref] }

def addFragments (b : Builder) (part : Contribution) : Except Error Builder :=
  if b.raw.isSome then .error (.misuse (.fragmentsAfterText b.path))
  else .ok
    { b with
      fragments := b.fragments ++ part.fragments
      exports := b.exports ++ part.exports }

def addText (b : Builder) (text : String) : Except Error Builder :=
  if b.fragments.isEmpty then .ok { b with raw := some (b.raw.getD "" ++ text) }
  else .error (.misuse (.textAfterFragments b.path))

def headerText (b : Builder) : Option String :=
  if b.headers.isEmpty then none else some (Text.join "\n" b.headers ++ "\n")

def registerExports (file plugin : String) :
    List Export → SymbolRegistry → SymbolRegistry × Except Error Unit
  | [], symbols => (symbols, .ok ())
  | e :: rest, symbols =>
    match symbols.register (e.symbol file) plugin with
    | .ok symbols => registerExports file plugin rest symbols
    | .error cause => (symbols, .error cause)

def deliver (b : Builder) (append : Bool) (emissions : Emissions) : Emissions :=
  match b.raw with
  | some raw =>
    let text := b.headerText.getD "" ++ raw
    if append then emissions.append b.path text b.plugin else emissions.emit b.path text b.plugin
  | none => emissions.emitDraft b.path b.fragments b.plugin b.headerText b.imports

/-- Emits the file. Once the checks are passed the builder counts as emitted, even if an export then
conflicts, and exports before the conflict stay registered. -/
def emit (b : Builder) (append : Bool) (space : Workspace) :
    Builder × Workspace × Except Error Unit :=
  if b.emitted then (b, space, .error (.misuse (.emittedTwice b.path b.plugin)))
  else if b.raw.isSome ∧ ¬ b.imports.isEmpty then
    (b, space, .error (.misuse (.importsOfText b.path)))
  else
    let done := { b with emitted := true }
    match registerExports b.path b.plugin b.exports space.symbols with
    | (symbols, .error cause) => (done, { space with symbols := symbols }, .error cause)
    | (symbols, .ok ()) =>
      (done, ⟨symbols, b.deliver append space.emissions⟩, .ok ())

inductive Call where
  | header (text : String)
  | addImport (ref : ImportRef)
  | fragments (part : Contribution)
  | text (content : String)
  | emit (append : Bool)
  deriving Inhabited, Repr

def settle (b : Builder) (space : Workspace) :
    Except Error Builder → Builder × Workspace × Except Error Unit
  | .ok next => (next, space, .ok ())
  | .error e => (b, space, .error e)

def apply (b : Builder) (space : Workspace) : Call → Builder × Workspace × Except Error Unit
  | .header text => (b.header text, space, .ok ())
  | .addImport ref => (b.addImport ref, space, .ok ())
  | .fragments part => b.settle space (b.addFragments part)
  | .text content => b.settle space (b.addText content)
  | .emit append => b.emit append space

def applyAll : List Call → Builder → Workspace → Builder × Workspace × Except Error Unit
  | [], b, space => (b, space, .ok ())
  | call :: rest, b, space =>
    match b.apply space call with
    | (b, space, .ok ()) => applyAll rest b space
    | failed => failed

end Builder
end Codegen
