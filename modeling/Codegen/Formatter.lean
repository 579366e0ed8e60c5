import Codegen.Error
import Codegen.Settings
import Codegen.Text.Blank
import Codegen.Warning

/-!
Formatting of finished files by an installed tool. A tool that is not there, that rejects the code or
that reports a failure leaves the code as it is. Whether a tool is there is found out once.
-/
namespace Codegen

inductive Formatter where
  | black
  | ruff
  deriving DecidableEq, Repr, Inhabited

structure BlackMode where
  targets : List String
  lineLength : Value
  stringNormalization : Value
  magicTrailingComma : Value
  deriving Inhabited, Repr

inductive CommandEnd where
  | finished (code : Int) (output errors : String)
  | missing
  | broken (reason : String)
  deriving DecidableEq, Repr, Inhabited

structure Tools where
  black : Option (BlackMode → String → Except String String) := none
  blackTargets : List String := []
  ruff : List Value → Option String → CommandEnd := fun _ _ => .missing

inductive ToolCall where
  | black (mode : BlackMode) (code : String)
  | ruff (command : List Value) (seconds : Nat) (code : Option String)
  deriving Inhabited, Repr

structure ToolState where
  available : Option Bool := none
  calls : List ToolCall := []
  warnings : List Warning := []
  deriving Inhabited, Repr

namespace Formatter

def named : Value → Except Error Formatter
  | .text "black" => .ok .black
  | .text "ruff" => .ok .ruff
  | .list _ => .error (.shape .wrongKind)
  | .object _ => .error (.shape .wrongKind)
  | name => .error (.unknownFormatter name)

def versionCommand : List Value :=
  [.text "ruff", .text "--version"]

def formatCommand (settings : FormatterSettings) : List Value :=
  [.text "ruff", .text "format", .text "--stdin-filename", .text "generated.py"]
    ++ (if settings.lineLength.truthy then
      [.text "--line-length", .text settings.lineLength.display] else [])
    ++ (if settings.targetVersion.truthy then
      [.text "--target-version", settings.targetVersion] else [])

def record (state : ToolState) (call : ToolCall) : ToolState :=
  { state with calls := state.calls ++ [call] }

def warn (state : ToolState) (warning : Warning) : ToolState :=
  { state with warnings := state.warnings ++ [warning] }

def probe (tools : Tools) (state : ToolState) : Formatter → Bool × ToolState
  | .black => (tools.black.isSome, state)
  | .ruff =>
    (tools.ruff versionCommand none matches .finished 0 _ _,
      record state (.ruff versionCommand 5 none))

def isAvailable (formatter : Formatter) (tools : Tools) (state : ToolState) : Bool × ToolState :=
  match state.available with
  | some known => (known, state)
  | none =>
    let (found, state) := formatter.probe tools state
    (found, { state with available := some found })

def blackTargets (known : List String) : Value → Except Error (List String)
  | .text s => .ok (known.filter (· = s.map Char.toUpper))
  | version => if version.truthy then .error (.shape .noMember) else .ok []

def formatBlack (settings : FormatterSettings) (tools : Tools) (code : String)
    (state : ToolState) : Except Error String × ToolState :=
  match tools.black with
  | none => (.ok code, state)
  | some run =>
    match blackTargets tools.blackTargets settings.targetVersion with
    | .error e => (.error e, state)
    | .ok targets =>
      let mode : BlackMode :=
        ⟨targets, settings.lineLength, settings.stringNormalization, settings.magicTrailingComma⟩
      let state := record state (.black mode code)
      match run mode code with
      | .ok formatted => (.ok formatted, state)
      | .error reason =>
        (.ok code, warn state (.codeRejected reason))

def formatRuff (settings : FormatterSettings) (tools : Tools) (code : String)
    (state : ToolState) : Except Error String × ToolState :=
  let command := formatCommand settings
  let state := record state (.ruff command 30 (some code))
  match tools.ruff command (some code) with
  | .missing => (.error (.fileSystem .absent), state)
  | .broken reason => (.ok code, warn state (.commandFailed reason))
  | .finished 0 output _ => (.ok output, state)
  | .finished _ _ errors => (.ok code, warn state (.commandFailed (Text.trim errors)))

def format (formatter : Formatter) (settings : FormatterSettings) (tools : Tools) (code : String)
    (state : ToolState) : Except Error String × ToolState :=
  match formatter.isAvailable tools state with
  | (false, state) => (.ok code, state)
  | (true, state) =>
    match formatter with
    | .black => formatBlack settings tools code state
    | .ruff => formatRuff settings tools code state

end Formatter
end Codegen
