import Codegen.Proofs.Path
import Codegen.Proofs.Text.Lines
import Mathlib.Data.List.TakeWhile

/-! Relative module paths. The first dot of a path stands for the package that it is read in, each further
dot climbs one directory, and the names behind the dots descend. Read in the package of one file, the
path that leads to another file names the module of that file, however the two are spelled. -/
namespace Codegen

namespace Text

theorem joinChars {mark c : Char} {parts : List String}
    (member : c ∈ (join (String.ofList [mark]) parts).toList) : c = mark ∨ ∃ part ∈ parts, c ∈ part.toList := by
  induction parts with
  | nil => simp [join] at member
  | cons part rest ih =>
    by_cases last : rest = []
    · subst last
      exact .inr ⟨part, by simp, by simpa [join] using member⟩
    · rw [join, String.intercalate_cons_of_ne_nil last, ← join] at member
      simp only [String.toList_append, String.toList_ofList, List.mem_append, List.mem_singleton] at member
      rcases member with (inside | same) | later
      · exact .inr ⟨part, List.mem_cons_self, inside⟩
      · exact .inl same
      · rcases ih later with same | ⟨other, listed, inside⟩
        · exact .inl same
        · exact .inr ⟨other, List.mem_cons_of_mem _ listed, inside⟩

theorem unmarked {mark : Char} {cs : List Char} (first : cs.head? ≠ some mark) :
    cs.takeWhile (· = mark) = [] ∧ cs.dropWhile (· = mark) = cs := by
  cases cs with
  | nil => exact ⟨rfl, rfl⟩
  | cons c rest =>
    have other : c ≠ mark := fun same => first (congrArg some same)
    simp [other]

section Parts

variable {mark : Char} {parts : List String} (plain : ∀ part ∈ parts, mark ∉ part.toList)
  (full : ∀ part ∈ parts, part ≠ "")

include plain full

theorem joinStarts : (join (String.ofList [mark]) parts).toList.head? ≠ some mark := by
  intro starts
  obtain ⟨rest, text⟩ := List.head?_eq_some_iff.mp starts
  cases parts with
  | nil => simp [join] at text
  | cons part others =>
    have parted := splitJoin (by simp) plain
    rw [split, text, cut, if_pos rfl] at parted
    exact full part List.mem_cons_self (List.cons.inj parted).1.symm

theorem joinEmpty : (join (String.ofList [mark]) parts).toList = [] ↔ parts = [] := by
  constructor
  · intro empty
    by_contra some
    have parted := splitJoin some plain
    rw [split, empty] at parted
    exact full "" (by simp [← parted, cut]) rfl
  · rintro rfl
    rfl

end Parts

end Text

namespace Path

/-- A file below the output root that can be imported: its directories and the stem of its name can
stand between the dots of a module path. -/
structure ModuleFile where
  dirs : List String
  file : String
  single : ∀ name ∈ dirs ++ [file], '/' ∉ name.toList ∧ '\\' ∉ name.toList
  importable : ∀ name ∈ dirs ++ [(partName file).1], name ≠ "" ∧ '.' ∉ name.toList

namespace ModuleFile

def path (m : ModuleFile) : String :=
  Text.join "/" (m.dirs ++ [m.file])

def ownName (m : ModuleFile) : List String :=
  if (partName m.file).1 = "__init__" then [] else [(partName m.file).1]

def moduleNames (m : ModuleFile) : List String :=
  m.dirs ++ m.ownName

end ModuleFile

def climb : Nat → List String → Option (List String)
  | 0, dirs => some dirs
  | level + 1, dirs => if dirs = [] then none else climb level dirs.dropLast

def descend (names : List Char) : List String :=
  if names = [] then [] else Text.split '.' (String.ofList names)

def moduleIn (package : List String) (source : String) : Option (List String) :=
  match (source.toList.takeWhile (· = '.')).length with
  | 0 => none
  | level + 1 => (climb level package).map (· ++ descend (source.toList.dropWhile (· = '.')))

inductive Respelled (s : String) : String → Prop where
  | same : Respelled s s
  | slashed {a b : String} (spelled : Respelled s (a ++ "/" ++ b)) : Respelled s (a ++ "\\" ++ b)
  | dotted {t : String} (spelled : Respelled s t) : Respelled s ("./" ++ t)

theorem respelledNormal {s t : String} (spelled : Respelled s t) : normalize t = normalize s := by
  induction spelled with
  | same => rfl
  | slashed _ ih =>
    rw [← ih]
    simp [normalize, slashed]
  | dotted _ ih =>
    rw [← ih]
    simp [normalize, slashed, dropDots]

theorem climbOut (dirs more : List String) : climb more.length (dirs ++ more) = some dirs := by
  induction more using List.reverseRecOn with
  | nil => rw [List.append_nil, List.length_nil, climb]
  | append_singleton more last ih =>
    rw [List.length_append, List.length_singleton, climb, ← List.append_assoc, List.dropLast_concat, ih,
      if_neg (by simp)]

theorem apartShared (xs ys : List String) :
    ∃ shared, xs = shared ++ (apart xs ys).1 ∧ ys = shared ++ (apart xs ys).2 := by
  fun_induction apart xs ys with
  | case1 _ y _ ih =>
    obtain ⟨shared, left, right⟩ := ih
    exact ⟨y :: shared, congrArg (y :: ·) left, congrArg (y :: ·) right⟩
  | case2 => exact ⟨[], rfl, rfl⟩
  | case3 => exact ⟨[], rfl, rfl⟩

theorem pathSplit (m : ModuleFile) : Text.split '/' m.path = m.dirs ++ [m.file] :=
  Text.splitJoin (by simp) fun name listed => (m.single name listed).1

theorem pathKept (m : ModuleFile) : normalize m.path = m.path := by
  have slashes : m.path.toList.map slashed = m.path.toList := by
    refine (List.map_congr_left fun c member => ?_).trans (List.map_id _)
    have other : c ≠ '\\' := by
      rintro rfl
      rcases Text.joinChars member with mark | ⟨name, listed, inside⟩
      · cases mark
      · exact (m.single name listed).2 inside
    rw [slashed, if_neg other, id]
  have dots : dropDots m.path.toList = m.path.toList := by
    refine dropDotsKept fun rest starts => ?_
    have first : m.dirs ++ [m.file] = "." :: Text.split '/' (String.ofList rest) := by
      rw [← pathSplit, Text.split, starts, Text.split, String.toList_ofList]
      rfl
    cases dirs : m.dirs with
    | nil =>
      rw [dirs] at first
      have none := (List.cons.inj first).2.symm
      exact Text.cutNonempty '/' rest (by simpa [Text.split] using none)
    | cons dir others =>
      rw [dirs] at first
      have dot : dir = "." := (List.cons.inj first).1
      exact (m.importable dir (by simp [dirs])).2 (by simp [dot])
  rw [normalize, slashes, dots, String.ofList_toList]

theorem pathParsed (m : ModuleFile) : parse (normalize m.path) = { names := m.dirs ++ [m.file] } := by
  have slashless : ∀ name ∈ m.dirs ++ [m.file], '/' ∉ name.toList := fun name listed =>
    (m.single name listed).1
  have counted : ∀ name ∈ m.dirs ++ [m.file], name ≠ "" ∧ name ≠ "." := by
    intro name listed
    rcases List.mem_append.mp listed with dir | file
    · obtain ⟨full, undotted⟩ := m.importable name (List.mem_append_left _ dir)
      exact ⟨full, fun same => undotted (by simp [same])⟩
    · obtain ⟨full, undotted⟩ := m.importable (partName m.file).1 (by simp)
      rw [List.mem_singleton.mp file]
      refine ⟨fun same => full ?_, fun same => undotted ?_⟩
      · rw [same]
        rfl
      · rw [same]
        decide
  have rootless : m.path.toList.takeWhile (· = '/') = [] := by
    exact (Text.unmarked (Text.joinStarts slashless fun name listed => (counted name listed).1)).1
  have names : (Text.split '/' m.path).filter counts = m.dirs ++ [m.file] := by
    rw [pathSplit, List.filter_eq_self]
    intro name listed
    simpa [counts] using counted name listed
  rw [pathKept, parse, rootless, names]
  rfl

/- The directories that both files share do not show: the path climbs out of the others of the first
file and goes down those of the second. -/
theorem moduleFromFiles (m target : ModuleFile) :
    ∃ shared climbed descended, m.dirs = shared ++ climbed ∧ target.dirs = shared ++ descended ∧
      moduleFrom m.path target.path = String.ofList (List.replicate (climbed.length + 1) '.') ++
        Text.join "." (descended ++ target.ownName) := by
  obtain ⟨shared, left, right⟩ := apartShared m.dirs target.dirs
  refine ⟨shared, _, _, left, right, ?_⟩
  simp [moduleFrom, pathParsed, parent, parts, stem, name, ModuleFile.ownName]

theorem dottedRead {names : List String} (level : Nat) (package : List String)
    (importable : ∀ name ∈ names, name ≠ "" ∧ '.' ∉ name.toList) :
    moduleIn package (String.ofList (List.replicate (level + 1) '.') ++ Text.join "." names) =
      (climb level package).map (· ++ names) := by
  have undotted : ∀ name ∈ names, '.' ∉ name.toList := fun name listed => (importable name listed).2
  have full : ∀ name ∈ names, name ≠ "" := fun name listed => (importable name listed).1
  have first : (Text.join "." names).toList.head? ≠ some '.' := Text.joinStarts undotted full
  have empty : (Text.join "." names).toList = [] ↔ names = [] := Text.joinEmpty undotted full
  have down : descend (Text.join "." names).toList = names := by
    rw [descend, String.ofList_toList]
    split
    · rename_i none
      exact (empty.mp none).symm
    · rename_i some
      exact Text.splitJoin (fun none => some (empty.mpr none)) undotted
  have dots : ∀ c ∈ List.replicate (level + 1) '.', decide (c = '.') = true := by
    intro c member
    simp [List.eq_of_mem_replicate member]
  obtain ⟨stop, rest⟩ := Text.unmarked first
  rw [moduleIn, String.toList_append, String.toList_ofList, List.takeWhile_append_of_pos dots,
    List.dropWhile_append_of_pos dots, stop, rest, List.append_nil, List.length_replicate]
  exact congrArg (fun below => (climb level package).map (· ++ below)) down

theorem moduleFromReads (m target : ModuleFile) :
    moduleIn m.dirs (moduleFrom m.path target.path) = some target.moduleNames := by
  obtain ⟨shared, climbed, descended, left, right, text⟩ := moduleFromFiles m target
  have importable : ∀ name ∈ descended ++ target.ownName, name ≠ "" ∧ '.' ∉ name.toList := by
    intro name listed
    refine target.importable name ?_
    rcases List.mem_append.mp listed with dir | own
    · simp [right, dir]
    · unfold ModuleFile.ownName at own
      split at own
      · cases own
      · exact List.mem_append_right _ own
  rw [text, dottedRead _ _ importable, left, climbOut, Option.map_some, ModuleFile.moduleNames, right,
    List.append_assoc]

theorem modulesReached (m target : ModuleFile) :
    moduleIn m.dirs (moduleFrom m.path target.path) = some target.moduleNames ∧
      (∀ other : ModuleFile, other.moduleNames ≠ target.moduleNames →
        moduleFrom m.path other.path ≠ moduleFrom m.path target.path) ∧
      ∀ source goal, Respelled m.path source → Respelled target.path goal →
        moduleFrom source goal = moduleFrom m.path target.path := by
  refine ⟨moduleFromReads m target, fun other apart same => apart ?_, fun source goal first second => ?_⟩
  · have reads := moduleFromReads m other
    rw [same, moduleFromReads m target] at reads
    exact (Option.some.inj reads).symm
  · rw [moduleFrom, moduleFrom, respelledNormal first, respelledNormal second]

/- A file that makes its directory a package stands for the directory. -/
namespace Sample

def queries : ModuleFile :=
  ⟨["queries"], "user.py", by decide +kernel, by decide +kernel⟩

def types : ModuleFile :=
  ⟨["types"], "__init__.py", by decide +kernel, by decide +kernel⟩

theorem typesReached : moduleFrom queries.path types.path = "..types" ∧
    moduleIn queries.dirs "..types" = some ["types"] ∧
    moduleFrom "queries\\user.py" "./types/__init__.py" = "..types" := by
  obtain ⟨reads, _, respelled⟩ := modulesReached queries types
  have path : moduleFrom queries.path types.path = "..types" := by decide +kernel
  have source : Respelled queries.path "queries\\user.py" := by
    have slashes : queries.path = "queries" ++ "/" ++ "user.py" := by decide +kernel
    have other : "queries\\user.py" = "queries" ++ "\\" ++ "user.py" := by decide +kernel
    rw [slashes, other]
    exact .slashed .same
  have goal : Respelled types.path "./types/__init__.py" := by
    have dots : "./types/__init__.py" = "./" ++ types.path := by decide +kernel
    rw [dots]
    exact .dotted .same
  exact ⟨path, path ▸ reads, (respelled _ _ source goal).trans path⟩

end Sample

end Path
end Codegen
