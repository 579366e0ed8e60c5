import Codegen.Import
import Codegen.Request
import Codegen.Value.Display

/-!
The causes for which a run or one of its parts fails, and their wording.
-/
namespace Codegen

structure Fault where
  label : String
  text : String
  chosen : Bool := true
  deriving DecidableEq, Repr, Inhabited

inductive Misuse where
  | fragmentsAfterText (path : String)
  | textAfterFragments (path : String)
  | emittedTwice (path plugin : String)
  | importsOfText (path : String)
  deriving DecidableEq, Repr, Inhabited

inductive FileError where
  | absent
  | occupied
  | isDirectory
  | notDirectory
  | busy
  deriving DecidableEq, Repr, Inhabited

inductive Error where
  | notFound (kind : String) (params : Value) (requestedBy : String)
  | ambiguous (kind : String) (providers : List String)
  | cyclic (cycle : List String)
  | failed (provider kind : String) (params : Value) (cause : Error)
  | pending (request : Request)
  | emitConflict (path : String) (plugins : List String)
  | symbolConflict (symbol : String) (plugins : List String) (file : Option String)
  | unresolved (refs : List UnresolvedRef)
  | misuse (cause : Misuse)
  | write (path reason : String)
  | duplicateProvider (name : String)
  | settled (request : Request)
  | noRule (capability : String)
  | unknownFormatter (name : Value)
  | unprintable (kindName : String)
  | unknownImport (ref : Value)
  | unnamedModule
  | outputExists (path : String)
  | outputsExist (paths : List String)
  | fileSystem (cause : FileError)
  | shape (cause : ShapeError)
  | lostResult (key : String)
  | exhausted
  | foreign (fault : Fault)
  deriving Inhabited, Repr

def Misuse.message : Misuse → String
  | fragmentsAfterText path => s!"Cannot mix ast() and content() for file {path}"
  | textAfterFragments path => s!"Cannot mix content() and ast() for file {path}"
  | emittedTwice path plugin => s!"File {path} was already emitted by {plugin}"
  | importsOfText path =>
    s!"Imports are only resolved for ast() content, not for raw file {path}"

def FileError.message : FileError → String
  | absent => "No such file or directory"
  | occupied => "File exists"
  | isDirectory => "Is a directory"
  | notDirectory => "Not a directory"
  | busy => "Device or resource busy"

def ShapeError.message : ShapeError → String
  | missingKey key => Text.quoted key
  | wrongKind => "value of the wrong kind"
  | noMember => "value without such a member"
  | wrongCount => "wrong number of values"
  | unknownChoice => "unknown choice"

def emitConflictMessage (path : String) (plugins : List String) : String :=
  let what :=
    if 1 < plugins.length then "Multiple plugins emitted to the same file: "
    else "Raw and structured content emitted to the same file: "
  what ++ path ++ " (plugins: " ++ Text.join ", " plugins ++ ")"

def symbolConflictMessage (symbol : String) (plugins : List String) (file : Option String) : String :=
  let place := match file with
    | some path => if path.isEmpty then "" else " in " ++ path
    | none => ""
  "Symbol collision: \"" ++ symbol ++ "\"" ++ place ++ " from plugins: " ++ Text.join ", " plugins

def UnresolvedRef.report (ref : UnresolvedRef) : String :=
  ref.describe ++ " (requested by " ++ ref.plugin ++ " in " ++ ref.file ++ ")"

def Error.message : Error → String
  | notFound kind params requestedBy =>
    "No provider found for \"" ++ kind ++ "\" (params: " ++ params.literal ++ ", requested by "
      ++ requestedBy ++ ")"
  | ambiguous kind providers =>
    "Singleton kind \"" ++ kind ++ "\" is provided by more than one provider: "
      ++ Text.join ", " providers
  | cyclic cycle => "Dependency cycle detected: " ++ Text.join " -> " cycle
  | failed provider kind _ cause =>
    "Plugin \"" ++ provider ++ "\" failed while providing \"" ++ kind ++ "\": " ++ cause.message
  | pending request =>
    "Resource \"" ++ request.kind ++ "\" has not been resolved yet (params: "
      ++ request.params.literal ++ ")"
  | emitConflict path plugins => emitConflictMessage path plugins
  | symbolConflict symbol plugins file => symbolConflictMessage symbol plugins file
  | unresolved refs =>
    "Undefined symbol references: " ++ Text.join ", " (refs.map UnresolvedRef.report)
  | misuse cause => cause.message
  | write path reason => path ++ ": " ++ reason
  | duplicateProvider name => "Provider \"" ++ name ++ "\" is already registered"
  | settled request => "Deferred resource " ++ request.describe ++ " is already resolved"
  | noRule capability =>
    "No file rule matches capability \"" ++ capability ++ "\" and no default file is configured"
  | unknownFormatter name =>
    "Unknown formatter: " ++ name.literal ++ " (expected one of black, ruff)"
  | unprintable kindName => "Cannot serialize fragment of type " ++ kindName
  | unknownImport ref => "Unknown import reference: " ++ ref.literal
  | unnamedModule => "an import names no module"
  | outputExists path =>
    "Output file already exists: " ++ path ++ ". Use force mode to overwrite."
  | outputsExist paths =>
    "Output files already exist: " ++ Text.join ", " paths ++ ". Use force mode to overwrite."
  | fileSystem cause => cause.message
  | shape cause => cause.message
  | lostResult key => Text.quoted key
  | exhausted => "a limit of the run was reached"
  | foreign fault => fault.text

end Codegen
