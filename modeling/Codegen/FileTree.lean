import Codegen.Error
import Codegen.Path

/-!
A tree of files and directories with a working directory in it. Places are lists of names from the top;
paths are followed name by name, two dots lead to the directory above, and all names but the last have
to lead to directories. A temporary file gets the first of a sequence of names that is not in use.
-/
namespace Codegen

inductive Entry where
  | directory
  | file (content : String)
  deriving DecidableEq, Repr, Inhabited

def temporaryTags : List String :=
  (List.range 10000).map toString

structure FileTree where
  entries : Table (List String) Entry := Table.empty
  workingDir : List String := ["work"]
  tags : List String := temporaryTags
  deriving Inhabited

inductive Place where
  | directory (place : List String)
  | named (place : List String)
  deriving DecidableEq, Repr

namespace FileTree

def entryAt (tree : FileTree) (place : List String) : Option Entry :=
  if place = [] ∨ place = tree.workingDir then some .directory else tree.entries.find? place

def follow (tree : FileTree) : (place names : List String) → Except FileError (List String)
  | place, [] => .ok place
  | place, name :: rest =>
    if name = ".." then follow tree place.dropLast rest
    else
      match tree.entryAt (place ++ [name]) with
      | some .directory => follow tree (place ++ [name]) rest
      | some (.file _) => .error .notDirectory
      | none => .error .absent

def start (tree : FileTree) (path : Path) : List String :=
  if path.root = "" then tree.workingDir else []

def locate (tree : FileTree) (path : Path) : Except FileError Place := do
  match path.names.getLast? with
  | none => .ok (.directory (tree.start path))
  | some last =>
    let above ← tree.follow (tree.start path) path.names.dropLast
    if last = ".." then .ok (.directory above.dropLast) else .ok (.named (above ++ [last]))

def find? (tree : FileTree) (path : Path) : Option Entry :=
  match tree.locate path with
  | .ok (.directory _) => some .directory
  | .ok (.named place) => tree.entryAt place
  | .error _ => none

def exists? (tree : FileTree) (path : Path) : Bool :=
  (tree.find? path).isSome

def put (tree : FileTree) (place : List String) (entry : Entry) : FileTree :=
  { tree with entries := tree.entries.put place entry }

def makeDirectory (tree : FileTree) (path : Path) : Except FileError FileTree := do
  match ← tree.locate path with
  | .directory _ => .error .occupied
  | .named place =>
    match tree.entryAt place with
    | some _ => .error .occupied
    | none => .ok (tree.put place .directory)

def ensureDirectory (tree : FileTree) (path : Path) : Except FileError FileTree :=
  match tree.makeDirectory path with
  | .ok tree => .ok tree
  | .error e => if tree.find? path = some .directory then .ok tree else .error e

def ensureAbove (root : String) (tree : FileTree) : List String → FileTree × Except FileError Unit
  | [] =>
    match tree.ensureDirectory ⟨root, []⟩ with
    | .ok tree => (tree, .ok ())
    | .error e => (tree, .error e)
  | last :: above =>
    let path : Path := ⟨root, (last :: above).reverse⟩
    match tree.makeDirectory path with
    | .ok tree => (tree, .ok ())
    | .error .absent =>
      match ensureAbove root tree above with
      | (tree, .error e) => (tree, .error e)
      | (tree, .ok ()) =>
        match tree.ensureDirectory path with
        | .ok tree => (tree, .ok ())
        | .error e => (tree, .error e)
    | .error e =>
      if tree.find? path = some .directory then (tree, .ok ()) else (tree, .error e)

def ensureDirectories (tree : FileTree) (path : Path) : FileTree × Except FileError Unit :=
  ensureAbove path.root tree path.names.reverse

def writeFile (tree : FileTree) (path : Path) (content : String) : Except FileError FileTree := do
  match ← tree.locate path with
  | .directory _ => .error .isDirectory
  | .named place =>
    if tree.entryAt place = some .directory then .error .isDirectory
    else .ok (tree.put place (.file content))

def makeTemporary (tree : FileTree) (path : Path) (content : String) :
    Except FileError (FileTree × Path) := do
  let name (tag : String) : String := "." ++ path.name ++ "." ++ tag ++ ".tmp"
  let tried := tree.tags.map fun tag => path.parent.join ⟨"", [name tag]⟩
  match tried.find? (fun temporary => !tree.exists? temporary) with
  | none => .error .occupied
  | some temporary => .ok (← tree.writeFile temporary content, temporary)

def removeFile (tree : FileTree) (path : Path) : FileTree :=
  match tree.locate path with
  | .ok (.named place) =>
    if tree.entryAt place = some .directory then tree
    else { tree with entries := tree.entries.erase place }
  | _ => tree

def replaceFile (tree : FileTree) (source target : Path) : Except FileError FileTree := do
  match tree.find? source, ← tree.locate target with
  | some (.file _), .directory _ => .error .busy
  | some (.file content), .named place =>
    if tree.entryAt place = some .directory then .error .isDirectory
    else .ok ((tree.removeFile source).put place (.file content))
  | _, _ => .error .absent

def listing (tree : FileTree) : List (String × Option String) :=
  let below := tree.entries.entries.filter
    (fun entry => tree.workingDir.isPrefixOf entry.1 ∧ entry.1 ≠ tree.workingDir)
  let shown := below.map fun entry =>
    (Text.join "/" (entry.1.drop tree.workingDir.length),
      match entry.2 with
      | .directory => none
      | .file content => some content)
  shown.mergeSort (fun a b => Text.precedes a.1 b.1)

end FileTree
end Codegen
