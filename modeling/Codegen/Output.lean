import Codegen.FileTree
import Codegen.Settings
import Codegen.Source.Grammar

/-!
Writing finished files. A writer makes the directories above a file, checks the text of a module before
it is in place, and then either replaces the file as a whole by a temporary one or writes it in place. A
whole set of files is written in the order of the paths; where existing files are refused, all of them
are looked for before anything is written.
-/
namespace Codegen

structure Writer where
  check : Path → String → Except Error Unit
  atomic : Bool := true

namespace Writer

def invalidReason : String :=
  "generated Python code is not valid"

def checkWith (parses : String → Bool) (path : Path) (content : String) : Except Error Unit :=
  if parses content then .ok () else .error (.write path.text invalidReason)

def checkModule : Path → String → Except Error Unit :=
  checkWith Source.wellFormed

def checkFile (writer : Writer) (path : Path) (content : String) (validate : Bool) :
    Except Error Unit :=
  if validate ∧ path.suffix = ".py" then writer.check path content else .ok ()

def writeAtomic (writer : Writer) (tree : FileTree) (path : Path) (content : String)
    (validate : Bool) : FileTree × Except Error Unit :=
  match tree.makeTemporary path content with
  | .error e => (tree, .error (.fileSystem e))
  | .ok (tree, temporary) =>
    match writer.checkFile path content validate with
    | .error e => (tree.removeFile temporary, .error e)
    | .ok () =>
      match tree.replaceFile temporary path with
      | .ok tree => (tree, .ok ())
      | .error e => (tree.removeFile temporary, .error (.fileSystem e))

def writeInPlace (writer : Writer) (tree : FileTree) (path : Path) (content : String)
    (validate : Bool) : FileTree × Except Error Unit :=
  match writer.checkFile path content validate with
  | .error e => (tree, .error e)
  | .ok () =>
    match tree.writeFile path content with
    | .ok tree => (tree, .ok ())
    | .error e => (tree, .error (.fileSystem e))

def write (writer : Writer) (tree : FileTree) (path : Path) (content : String) (validate : Bool) :
    FileTree × Except Error Unit :=
  match tree.ensureDirectories path.parent with
  | (tree, .error e) => (tree, .error (.fileSystem e))
  | (tree, .ok ()) =>
    if writer.atomic then writer.writeAtomic tree path content validate
    else writer.writeInPlace tree path content validate

def writeNew (writer : Writer) (tree : FileTree) (path : Path) (content : String)
    (validate : Bool) : FileTree × Except Error Unit :=
  if tree.exists? path then (tree, .error (.outputExists path.text))
  else writer.write tree path content validate

def writeAll (writer : Writer) (validate : Bool) :
    List (Path × String) → FileTree → FileTree × Except Error Unit
  | [], tree => (tree, .ok ())
  | (path, content) :: rest, tree =>
    match writer.write tree path content validate with
    | (tree, .ok ()) => writeAll writer validate rest tree
    | failed => failed

end Writer

namespace Output

def targets (root : Path) (files : List (String × String)) : Table Path String :=
  Table.ofList ((files.mergeSort (fun a b => Text.precedes a.1 b.1)).map
    (fun file => (root.join (Path.parse file.1), file.2)))

def root (settings : Settings) : Except Error Path :=
  match settings.outputDir with
  | .text dir => .ok (Path.parse dir)
  | _ => .error (.shape .wrongKind)

def refused (tree : FileTree) (settings : OutputSettings) (paths : List Path) : List Path :=
  match settings.mode with
  | .refuse => paths.filter tree.exists?
  | _ => []

def writeTargets (tree : FileTree) (settings : OutputSettings) (targets : Table Path String)
    (parses : String → Bool := Source.wellFormed) : FileTree × Except Error (List Path) :=
  let existing := refused tree settings targets.keys
  if existing ≠ [] then (tree, .error (.outputsExist (existing.map Path.text)))
  else
    let writer : Writer := ⟨Writer.checkWith parses, settings.atomic.truthy⟩
    match writer.writeAll settings.validate.truthy targets.entries tree with
    | (tree, .ok ()) => (tree, .ok targets.keys)
    | (tree, .error e) => (tree, .error e)

def writeFiles (tree : FileTree) (settings : Settings) (files : List (String × String))
    (parses : String → Bool := Source.wellFormed) : FileTree × Except Error (List Path) :=
  match root settings, settings.output.get with
  | .error e, _ => (tree, .error e)
  | .ok _, .error e => (tree, .error (.shape e))
  | .ok dir, .ok output => writeTargets tree output (targets dir files) parses

end Output
end Codegen
