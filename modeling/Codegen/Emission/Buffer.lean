import Codegen.Emission.Attribution
import Codegen.Serializer
import Codegen.Symbol.Registry

/-!
The files of a run while it lasts. A file is either text, which belongs to the plugin that wrote it, or
a draft of fragments to which several plugins may contribute. Finalizing turns every draft into text;
imports are resolved only then, when all symbols are known, and references that no symbol answers are
collected. A path with two writers of text, or with both text and a draft, is a conflict.
-/
namespace Codegen

structure File where
  path : String
  content : String
  plugin : String
  deriving DecidableEq, Repr, Inhabited

structure Draft where
  path : String
  fragments : List Fragment
  plugin : String
  header : Option String
  imports : List ImportRef
  deriving Inhabited, Repr

def Draft.plugins (draft : Draft) : List String :=
  Attribution.names draft.plugin

structure Emissions where
  files : Table String File := Table.empty
  drafts : Table String Draft := Table.empty
  writers : Table String (List String) := Table.empty
  mixed : Table String (List String) := Table.empty
  unresolved : List UnresolvedRef := []
  deriving Inhabited

namespace Emissions

def addWriter (table : Table String (List String)) (path plugin : String) :
    Table String (List String) :=
  table.put path (Text.extend ((table.find? path).getD []) [plugin])

def emit (emissions : Emissions) (path content plugin : String) : Emissions :=
  let path := Path.normalize path
  { emissions with
    files := emissions.files.put path ⟨path, content, plugin⟩
    writers := addWriter emissions.writers path plugin }

def append (emissions : Emissions) (path content plugin : String) : Emissions :=
  let path := Path.normalize path
  match emissions.files.find? path with
  | none => emissions.emit path content plugin
  | some file =>
    if file.plugin = plugin then
      let longer := { file with content := file.content ++ content }
      { emissions with files := emissions.files.put path longer }
    else { emissions with writers := addWriter emissions.writers path plugin }

def emitDraft (emissions : Emissions) (path : String) (fragments : List Fragment)
    (plugin : String) (header : Option String) (imports : List ImportRef) : Emissions :=
  let path := Path.normalize path
  let draft := match emissions.drafts.find? path with
    | none => ⟨path, fragments, plugin, header, imports⟩
    | some draft =>
      { draft with
        fragments := draft.fragments ++ fragments
        plugin := Attribution.add draft.plugin plugin
        imports := draft.imports ++ imports }
  { emissions with drafts := emissions.drafts.put path draft }

def file? (emissions : Emissions) (path : String) : Option File :=
  emissions.files.find? (Path.normalize path)

def allFiles (emissions : Emissions) : List File :=
  emissions.files.values

def allDrafts (emissions : Emissions) : List Draft :=
  emissions.drafts.values

def conflict? (emissions : Emissions) : Option (String × List String) :=
  (emissions.writers.entries.find? (fun entry => 1 < entry.2.length)).or
    emissions.mixed.entries.head?

def validate (emissions : Emissions) : Except Error Unit :=
  match emissions.conflict? with
  | some (path, plugins) => .error (.emitConflict path plugins)
  | none => .ok ()

inductive Resolved where
  | statement (s : Statement)
  | nothing
  | missing (ref : UnresolvedRef)
  deriving DecidableEq, Repr

def resolveImport (symbols : SymbolRegistry) (draft : Draft) : ImportRef → Except Error Resolved
  | .symbol ref =>
    match symbols.resolve ref with
    | none => .ok (.missing ⟨ref.capability, ref.entity, ref.shape, draft.plugin, draft.path⟩)
    | some symbol =>
      match symbol.importFor draft.path with
      | some statement => .ok (.statement statement)
      | none => .ok .nothing
  | .package ref => .ok (.statement ref.statement)
  | .relative ref => .ok (.statement ref.statement)
  | .other value => .error (.unknownImport value)

def resolveImports (symbols : SymbolRegistry) (draft : Draft) :
    List ImportRef → List UnresolvedRef × Except Error (List Statement)
  | [] => ([], .ok [])
  | ref :: rest =>
    match resolveImport symbols draft ref with
    | .error e => ([], .error e)
    | .ok resolved =>
      let (missing, statements) := resolveImports symbols draft rest
      match resolved with
      | .statement s => (missing, statements.map (s :: ·))
      | .nothing => (missing, statements)
      | .missing ref => (ref :: missing, statements)

def draftText (serializer : Serializer) (draft : Draft) (statements : List Statement) :
    Except Error String := do
  let imports ← if statements.isEmpty then .ok "" else serializer.imports statements
  let body ← serializer.body draft.fragments
  .ok (serializer.assemble draft.header imports (serializer.tidy body))

def finalizeDraft (serializer : Serializer) (symbols : SymbolRegistry) (emissions : Emissions)
    (draft : Draft) : Emissions × Except Error Unit :=
  let (missing, statements) := resolveImports symbols draft draft.imports
  let emissions := { emissions with unresolved := emissions.unresolved ++ missing }
  match statements.bind (fun s => draftText serializer draft (Statement.merge s)) with
  | .error e => (emissions, .error e)
  | .ok content =>
    let mixed := match emissions.writers.find? draft.path with
      | some writers => emissions.mixed.put draft.path (Text.extend writers draft.plugins)
      | none => emissions.mixed
    ({ emissions with
        mixed := mixed
        files := emissions.files.put draft.path ⟨draft.path, content, draft.plugin⟩ }, .ok ())

def finalizeDrafts (serializer : Serializer) (symbols : SymbolRegistry) :
    List Draft → Emissions → Emissions × Except Error Unit
  | [], emissions => (emissions, .ok ())
  | draft :: rest, emissions =>
    match finalizeDraft serializer symbols emissions draft with
    | (emissions, .ok ()) => finalizeDrafts serializer symbols rest emissions
    | (emissions, .error e) => (emissions, .error e)

def finalize (emissions : Emissions) (serializer : Serializer) (symbols : SymbolRegistry) :
    Emissions × Except Error (List String) :=
  match finalizeDrafts serializer symbols emissions.drafts.values emissions with
  | (after, .ok ()) => ({ after with drafts := Table.empty }, .ok (emissions.drafts.values.map (·.path)))
  | (after, .error e) => (after, .error e)

def setContent (emissions : Emissions) (path content : String) : Emissions :=
  match emissions.files.find? path with
  | some file => { emissions with files := emissions.files.put path { file with content := content } }
  | none => emissions

end Emissions
end Codegen
