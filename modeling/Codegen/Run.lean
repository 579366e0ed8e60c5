import Codegen.Banner
import Codegen.Execution
import Codegen.Formatter

/-!
A run: declarations are checked, a plan is made and executed, drafts are turned into text, formatted and
given a banner, and at last everything is checked for conflicts. Files come out of a run only if all
of this succeeds.
-/
namespace Codegen

structure RunInput where
  registry : Registry
  model : Model := {}
  settings : Settings := {}
  targets : List RequestForm := []
  serializer : Serializer := .standard
  fileRules : List FileRule := []
  tools : Tools := {}
  depth : Nat := Script.usualDepth

structure RunResult where
  plan : Plan
  space : Workspace
  results : Table String Value

structure RunTrace where
  registry : Registry
  state : RunState := {}
  tool : ToolState := {}

def RunTrace.warnings (trace : RunTrace) : List Warning :=
  trace.state.warnings

namespace RunResult

def files (result : RunResult) : List (String × String) :=
  result.space.emissions.allFiles.map (fun file => (file.path, file.content))

def unresolved (result : RunResult) : List UnresolvedRef :=
  result.space.emissions.unresolved

end RunResult

namespace Run

def defaultFile (settings : Settings) : Option String :=
  if settings.defaultFile.truthy then some settings.defaultFile.display else none

def services (input : RunInput) : Services :=
  { model := input.model, fileRules := input.fileRules
    defaultFile := defaultFile input.settings }

def chosenFormatter (settings : Settings) :
    Except Error (Option (Formatter × FormatterSettings)) := do
  let section_ ← settings.formatter.get.mapError Error.shape
  if section_.enabled.truthy then .ok (some (← Formatter.named section_.name, section_))
  else .ok none

def usable (tools : Tools) (tool : ToolState) :
    Option (Formatter × FormatterSettings) → Option (Formatter × FormatterSettings) × ToolState
  | none => (none, tool)
  | some (formatter, settings) =>
    match formatter.isAvailable tools tool with
    | (true, tool) => (some (formatter, settings), tool)
    | (false, tool) => (none, Formatter.warn tool (.toolMissing settings.name.display))

def formatFile (tools : Tools) (formatter : Option (Formatter × FormatterSettings))
    (path content : String) (tool : ToolState) : Except Error String × ToolState :=
  match formatter with
  | some (formatter, settings) =>
    if Text.endsWith path ".py" then formatter.format settings tools content tool
    else (.ok content, tool)
  | none => (.ok content, tool)

structure Finishing where
  tools : Tools
  formatter : Option (Formatter × FormatterSettings)
  banner : Bool
  source : Value

def addBanner (finishing : Finishing) (plugins : List String) (content : String) : String :=
  if finishing.banner then Banner.apply content plugins finishing.source else content

def finishFiles (finishing : Finishing) :
    List (String × List String) → Emissions → ToolState → Emissions × ToolState × Except Error Unit
  | [], emissions, tool => (emissions, tool, .ok ())
  | (path, plugins) :: rest, emissions, tool =>
    match emissions.file? path with
    | none => finishFiles finishing rest emissions tool
    | some file =>
      match formatFile finishing.tools finishing.formatter path file.content tool with
      | (.error e, tool) => (emissions, tool, .error e)
      | (.ok content, tool) =>
        let content := addBanner finishing plugins content
        finishFiles finishing rest (emissions.setContent path content) tool

def checkSymbols (symbols : SymbolRegistry) : Except Error Unit :=
  match symbols.collisions with
  | [] => .ok ()
  | c :: _ => .error (.symbolConflict c.symbol c.plugins (some c.file))

def unresolvedWarning (ref : UnresolvedRef) : Warning :=
  .unresolvedImport ref.describe ref.plugin ref.file

def checkOutcome (settings : Settings) (space : Workspace) : Except Error Unit := do
  if space.emissions.unresolved ≠ [] ∧ settings.strictReferences.truthy then
    .error (.unresolved space.emissions.unresolved)
  else
    space.emissions.validate
    checkSymbols space.symbols

def finish (input : RunInput) (space : Workspace) (tool : ToolState) :
    Workspace × ToolState × Except Error Unit :=
  let drafts := space.emissions.allDrafts.map (fun draft => (draft.path, draft.plugins))
  match space.emissions.finalize input.serializer space.symbols with
  | (emissions, .error e) => ({ space with emissions := emissions }, tool, .error e)
  | (emissions, .ok _) =>
    match chosenFormatter input.settings with
    | .error e => ({ space with emissions := emissions }, tool, .error e)
    | .ok chosen =>
      let (formatter, tool) := usable input.tools tool chosen
      let finishing : Finishing :=
        ⟨input.tools, formatter, input.settings.addBanner.truthy, input.model.source⟩
      let (emissions, tool, outcome) := finishFiles finishing drafts emissions tool
      ({ space with emissions := emissions }, tool, outcome)

def makePlan (input : RunInput) : Except Error Plan := do
  let _ ← checkDeclarations input.registry.providers
  Plan.resolve input.registry input.targets

def conclude (input : RunInput) (plan : Plan) (registry : Registry) (state : RunState)
    (results : Table String Value) : RunTrace × Except Error RunResult :=
  let (space, tool, outcome) := finish input state.space {}
  let warned := state.warnings ++ tool.warnings
  match outcome with
  | .error e => (⟨registry, { state with space := space, warnings := warned }, tool⟩, .error e)
  | .ok () =>
    let reported := warned ++ space.emissions.unresolved.map unresolvedWarning
    (⟨registry, { state with space := space, warnings := reported }, tool⟩,
      (checkOutcome input.settings space).map (fun _ => ⟨plan, space, results⟩))

def run (input : RunInput) : RunTrace × Except Error RunResult :=
  match makePlan input with
  | .error e => ({ registry := input.registry }, .error e)
  | .ok plan =>
    match plan.execute input.registry (services input) input.depth with
    | (state, registry, .error e) => ({ registry := registry, state := state }, .error e)
    | (state, registry, .ok results) => conclude input plan registry state results

end Run
end Codegen
