import Codegen.Execution
import Codegen.Formatter

/-!
The parts of a run as values: an object with a member for each field. Of a source tree only the kind of
its outermost node is reported.
-/
namespace Codegen

def Value.optional : Option String → Value
  | none => .null
  | some s => .text s

def Value.texts (ss : List String) : Value :=
  .list (ss.map Value.text)

def SymbolRef.value (r : SymbolRef) : Value :=
  .object [("capability", .text r.capability), ("entity", .text r.entity),
    ("shape", .optional r.shape)]

def Statement.value (s : Statement) : Value :=
  .object [("source", .text s.source), ("named", .texts s.named), ("types", .texts s.types),
    ("default", .optional s.default), ("namespace", .optional s.namespaceAlias)]

def ModuleRef.value (r : ModuleRef) : Value :=
  .object [("source", .text r.source), ("names", .texts r.names), ("types", .texts r.types),
    ("default", .optional r.default), ("namespace", .optional r.namespaceAlias)]

def ImportRef.value : ImportRef → Value
  | .symbol r => .object [("symbol", r.value)]
  | .package r => .object [("package", r.value)]
  | .relative r => .object [("relative", r.value)]
  | .other v => v

def UnresolvedRef.value (r : UnresolvedRef) : Value :=
  .object [("capability", .text r.capability), ("entity", .text r.entity),
    ("shape", .optional r.shape), ("plugin", .text r.plugin), ("file", .text r.file)]

def Symbol.value (s : Symbol) : Value :=
  .object [("name", .text s.name), ("file", .text s.file), ("capability", .text s.capability),
    ("entity", .text s.entity), ("shape", .optional s.shape), ("is_type", .bool s.isType),
    ("is_default", .bool s.isDefault), ("key", .text s.key)]

def Collision.value (c : Collision) : Value :=
  .object [("symbol", .text c.symbol), ("file", .text c.file), ("plugins", .texts c.plugins)]

def EntityMethods.value (m : EntityMethods) : Value :=
  .object [("entity", .text m.entity), ("methods", .list m.methods), ("plugin", .text m.plugin),
    ("import_path", .text m.importPath)]

namespace Source

def Expr.kind : Expr → String
  | .name .. => "Name"
  | .constant .. => "Constant"
  | .member .. => "Attribute"
  | .subscript .. => "Subscript"
  | .call .. => "Call"
  | .list .. => "List"

def Stmt.kind : Stmt → String
  | .pass => "Pass"
  | .giveBack .. => "Return"
  | .expr .. => "Expr"
  | .assign .. => "Assign"
  | .annotated .. => "AnnAssign"
  | .importModules .. => "Import"
  | .importFrom .. => "ImportFrom"
  | .branch .. => "If"
  | .classDef .. => "ClassDef"
  | .functionDef suspends .. => if suspends then "AsyncFunctionDef" else "FunctionDef"

def Node.kind : Node → String
  | .stmt s => s.kind
  | .expr e => e.kind
  | .program _ => "Module"

end Source

def Fragment.value : Fragment → Value
  | .text s => .text s
  | .node tree => .object [("node", .text tree.kind)]
  | .other v => v

def File.value (f : File) : Value :=
  .object [("path", .text f.path), ("content", .text f.content), ("plugin", .text f.plugin)]

def Draft.value (d : Draft) : Value :=
  .object [("path", .text d.path), ("fragments", .list (d.fragments.map Fragment.value)),
    ("plugin", .text d.plugin), ("header", .optional d.header),
    ("imports", .list (d.imports.map ImportRef.value)), ("plugins", .texts d.plugins)]

def ToolCall.value : ToolCall → Value
  | .black mode code =>
    .object [("black", .object [("target_versions", .texts mode.targets),
      ("line_length", mode.lineLength), ("string_normalization", mode.stringNormalization),
      ("magic_trailing_comma", mode.magicTrailingComma)]), ("code", .text code)]
  | .ruff command seconds code =>
    .object ([("ruff", .list command), ("timeout", .int seconds)]
      ++ (code.map (fun code => ("code", Value.text code))).toList)

def Request.value (r : Request) : Value :=
  .object [("kind", .text r.kind), ("params", r.params)]

def Deferred.value (d : Deferred) : Value :=
  .object [("key", .text d.request.key), ("kind", .text d.request.kind),
    ("params", d.request.params), ("requested_by", .text d.requestedBy),
    ("is_resolved", .bool d.result.isSome)]

def Step.value (s : Step) : Value :=
  .object [("key", .text s.key), ("describe", .text s.describe),
    ("provider", .text s.provider.name), ("params", s.request.params), ("repr", .text s.report),
    ("dependencies", .texts s.dependencies),
    ("optional", .list (s.optional.map Value.optional))]

def Plan.value (plan : Plan) : Value :=
  .object [("steps", .list (plan.steps.map Step.value)), ("keys", .texts plan.keys),
    ("describe", .texts plan.describe), ("len", .int plan.steps.length)]

def Declaration.value (d : Declaration) : Value :=
  .object [("name", .text d.name), ("capability", .text d.capability),
    ("depends_on", .texts d.dependsOn)]

def RunState.value (state : RunState) : Value :=
  .object [("ast_all", .list (state.space.emissions.allDrafts.map Draft.value)),
    ("all", .list (state.space.emissions.allFiles.map File.value)),
    ("symbols", .list (state.space.symbols.all.map Symbol.value)),
    ("handlers", .texts state.handlers.kinds)]

end Codegen
