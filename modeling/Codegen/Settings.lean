import Codegen.Value.Shape

/-!
Settings of a run. They are read from an object whose members may come in any order; a member that is
no setting is left out, apart from a few names that belong to the settings object itself. The sections
for formatting and output are parsed when they are objects and kept as they are otherwise, in which
case whatever needs them fails.
-/
namespace Codegen

inductive OutputMode where
  | refuse
  | overwrite
  | other (value : Value)
  deriving Inhabited, Repr

structure OutputSettings where
  mode : OutputMode := .refuse
  validate : Value := .bool true
  atomic : Value := .bool true
  deriving Inhabited, Repr

structure FormatterSettings where
  enabled : Value := .bool false
  name : Value := .text "ruff"
  lineLength : Value := .int 100
  targetVersion : Value := .text "py312"
  stringNormalization : Value := .bool true
  magicTrailingComma : Value := .bool true
  deriving Inhabited, Repr

inductive Section (α : Type) where
  | parsed (settings : α)
  | raw (value : Value)
  deriving Inhabited, Repr

def Section.get {α : Type} : Section α → Except ShapeError α
  | .parsed settings => .ok settings
  | .raw _ => .error .noMember

structure Settings where
  outputDir : Value := .text "generated"
  addBanner : Value := .bool true
  strictReferences : Value := .bool false
  defaultFile : Value := .text "index.py"
  formatter : Section FormatterSettings := .parsed {}
  output : Section OutputSettings := .parsed {}
  /-- Set when a member took the place of the export below. -/
  shadowed : Bool := false
  deriving Inhabited, Repr

namespace OutputMode

def read : Value → Except ShapeError OutputMode
  | .text "error" => .ok .refuse
  | .text "force" => .ok .overwrite
  | .text _ => .error .unknownChoice
  | value => .ok (.other value)

def value : OutputMode → Except ShapeError Value
  | .refuse => .ok (.text "error")
  | .overwrite => .ok (.text "force")
  | .other _ => .error .noMember

end OutputMode

namespace OutputSettings

def read (value : Value) : Except ShapeError OutputSettings := do
  .ok
    { mode := ← OutputMode.read (value.getOr "mode" (.text "error"))
      validate := value.getOr "validate_before_write" (.bool true)
      atomic := value.getOr "atomic_write" (.bool true) }

def value (s : OutputSettings) : Except ShapeError Value := do
  .ok (.object [("mode", ← s.mode.value), ("validate_before_write", s.validate),
    ("atomic_write", s.atomic)])

end OutputSettings

namespace FormatterSettings

def keys : List String :=
  ["enabled", "name", "line_length", "target_version", "string_normalization",
    "magic_trailing_comma"]

def read (value : Value) : Except ShapeError FormatterSettings := do
  let members := Value.object (← value.arguments keys [])
  .ok
    { enabled := members.getOr "enabled" (.bool false)
      name := members.getOr "name" (.text "ruff")
      lineLength := members.getOr "line_length" (.int 100)
      targetVersion := members.getOr "target_version" (.text "py312")
      stringNormalization := members.getOr "string_normalization" (.bool true)
      magicTrailingComma := members.getOr "magic_trailing_comma" (.bool true) }

def value (s : FormatterSettings) : Value :=
  .object [("enabled", s.enabled), ("name", s.name), ("line_length", s.lineLength),
    ("target_version", s.targetVersion), ("string_normalization", s.stringNormalization),
    ("magic_trailing_comma", s.magicTrailingComma)]

end FormatterSettings

namespace Settings

def classKey : String := "__class__"
def membersKey : String := "__dict__"
def referencesKey : String := "__weakref__"
def exportKey : String := "to_dict"

def put (s : Settings) (key : String) (value : Value) : Settings :=
  if key = "output_dir" then { s with outputDir := value }
  else if key = "add_generation_comment" then { s with addBanner := value }
  else if key = "strict_references" then { s with strictReferences := value }
  else if key = "default_file" then { s with defaultFile := value }
  else if key = "formatter" then { s with formatter := .raw value }
  else if key = "output" then { s with output := .raw value }
  else if key = exportKey then { s with shadowed := true }
  else s

def replaceAll (members : List (String × Value)) : Settings :=
  members.foldl (fun s m => s.put m.1 m.2) { formatter := .raw .null, output := .raw .null }

def assign (s : Settings) (key : String) (value : Value) : Except ShapeError Settings :=
  match value with
  | .object members =>
    if key = "formatter" then do .ok { s with formatter := .parsed (← FormatterSettings.read value) }
    else if key = "output" then do .ok { s with output := .parsed (← OutputSettings.read value) }
    else if key = membersKey then .ok (replaceAll members)
    else if key = classKey then .error .wrongKind
    else if key = referencesKey then .error .noMember
    else .ok (s.put key value)
  | _ =>
    if key = membersKey ∨ key = classKey then .error .wrongKind
    else if key = referencesKey then .error .noMember
    else .ok (s.put key value)

def read : Value → Except ShapeError Settings
  | .object members => members.foldlM (fun s m => s.assign m.1 m.2) {}
  | _ => .error .noMember

def value (s : Settings) : Except ShapeError Value := do
  if s.shadowed then .error .wrongKind
  else
    let formatter ← s.formatter.get
    let output ← (← s.output.get).value
    .ok (.object [("output_dir", s.outputDir), ("add_generation_comment", s.addBanner),
      ("strict_references", s.strictReferences), ("default_file", s.defaultFile),
      ("formatter", formatter.value), ("output", output)])

end Settings
end Codegen
