import Codegen.Proofs.Output.Writing
import Codegen.Proofs.Text.Lines
import Codegen.Run

/-! Files that were written. When a whole set of files is in place, each path leads to the text of the last
file, in the order of the path texts, that denotes what the path denotes. -/
namespace Codegen

namespace Path

structure Inner (p : Path) : Prop where
  relative : p.root = ""
  plain : ".." ∉ p.names

theorem joinInner {p : Path} (inner : p.Inner) (dir : Path) :
    dir.join p = { dir with names := dir.names ++ p.names } := by
  rw [join, if_pos inner.relative]

theorem joinSame {p q : Path} (first : p.Inner) (second : q.Inner) {dir : Path}
    (same : dir.join p = dir.join q) : p = q := by
  rw [joinInner first, joinInner second] at same
  have names := List.append_cancel_left (Path.mk.inj same).2
  cases p
  cases q
  cases first.relative
  cases second.relative
  cases names
  rfl

end Path

namespace Writer

variable {after : FileTree} {targets : List (Path × String)} {texts : List String → Option String}
  {place : List String}

theorem overlaidOther (apart : ∀ target ∈ targets, after.locate target.1 ≠ .ok (.named place)) :
    overlaid after targets texts place = texts place := by
  induction targets generalizing texts with
  | nil => rfl
  | cons target rest ih =>
    have other := apart target List.mem_cons_self
    rw [overlaid, List.foldl_cons, ← overlaid, ih fun t member => apart t (List.mem_cons_of_mem _ member)]
    rcases located : after.locate target.1 with _ | _ | elsewhere
    · rfl
    · rfl
    · exact Function.update_of_ne (fun same => other (located.trans (by rw [same]))) _ _

theorem overlaidHere {path : Path} {content : String} (member : (path, content) ∈ targets)
    (located : after.locate path = .ok (.named place))
    (apart : ∀ target ∈ targets, after.locate target.1 = .ok (.named place) → target.1 = path)
    (distinct : (targets.map Prod.fst).Nodup) : overlaid after targets texts place = some content := by
  obtain ⟨before, rest, rfl⟩ := List.append_of_mem member
  rw [List.map_append, List.map_cons, List.nodup_append] at distinct
  have fresh := (List.nodup_cons.mp distinct.2.1).1
  rw [overlaid, List.foldl_append, List.foldl_cons, ← overlaid, overlaidOther]
  · simp only [located, Function.update_self]
  -- what is written later leads elsewhere, as no path occurs twice
  · intro target later same
    have equal := apart target (by simp [later]) same
    exact fresh (equal ▸ List.mem_map.mpr ⟨target, later, rfl⟩)

end Writer

namespace Output

variable {tree after : FileTree} {settings : Settings} {files : List (String × String)} {paths : List Path}
  {parses : String → Bool}

abbrev denoted (file : String × String) : Path :=
  Path.parse file.1

theorem writtenAll (ok : writeFiles tree settings files parses = (after, .ok paths)) :
    ∃ dir, root settings = .ok dir ∧ paths = (targets dir files).keys ∧
      Writer.Progress tree after (targets dir files).entries := by
  unfold writeFiles at ok
  split at ok
  · cases ok
  · cases ok
  · rename_i dir output below _
    unfold writeTargets at ok
    simp only at ok
    split at ok
    · cases ok
    · split at ok
      · rename_i ended
        cases ok
        cases Writer.endedAll ended with
        | completed progress => exact ⟨dir, below, rfl, progress⟩
      · cases ok

def Last (files : List (String × String)) (file : String × String) : Prop :=
  ∀ other ∈ files, denoted other = denoted file → other.1 ≤ file.1

section Targets

variable {dir : Path} (inner : ∀ file ∈ files, (denoted file).Inner)

theorem targetsSorted (dir : Path) (files : List (String × String)) : ∃ sorted : List (String × String),
    sorted.Perm files ∧ sorted.Pairwise (fun a b => a.1 ≤ b.1) ∧
      targets dir files = Table.ofList (sorted.map fun file => (dir.join (denoted file), file.2)) := by
  exact ⟨_, List.mergeSort_perm files _, Text.sortedOn Prod.fst files, rfl⟩

include inner

theorem targetsLast (distinct : (files.map Prod.fst).Nodup) {file : String × String}
    (member : file ∈ files) (last : Last files file) :
    (targets dir files).find? (dir.join (denoted file)) = some file.2 := by
  obtain ⟨sorted, perm, ascending, listed⟩ := targetsSorted dir files
  obtain ⟨before, rest, rfl⟩ := List.append_of_mem (perm.mem_iff.mpr member)
  rw [listed, List.map_append, List.map_cons]
  refine Table.findLast fun later => ?_
  obtain ⟨target, listed, same⟩ := List.mem_map.mp later
  obtain ⟨other, following, rfl⟩ := List.mem_map.mp listed
  have known : other ∈ files := perm.mem_iff.mp (by simp [following])
  have equal := Path.joinSame (inner other known) (inner file member) same
  have text : other.1 = file.1 := String.le_antisymm (last other known equal)
    (List.rel_of_pairwise_cons (List.pairwise_append.mp ascending).2.1 following)
  have apart := (perm.map Prod.fst).nodup_iff.mpr distinct
  rw [List.map_append, List.map_cons, List.nodup_append] at apart
  exact (List.nodup_cons.mp apart.2.1).1 (text ▸ List.mem_map.mpr ⟨other, following, rfl⟩)

theorem targetsInner {path : Path} (member : path ∈ (targets dir files).keys) :
    ∃ p : Path, p.Inner ∧ dir.join p = path := by
  obtain ⟨sorted, perm, _, listed⟩ := targetsSorted dir files
  rw [listed, Table.memKeysOfList, List.map_map] at member
  obtain ⟨file, known, rfl⟩ := List.mem_map.mp member
  exact ⟨denoted file, inner file (perm.mem_iff.mp known), rfl⟩

theorem targetsCount : (targets dir files).keys.length = files.length ↔ (files.map denoted).Nodup := by
  obtain ⟨sorted, perm, _, listed⟩ := targetsSorted dir files
  have count := @Table.lengthOfList _ _ _ (sorted.map fun file => (dir.join (denoted file), file.2))
  have joined : (sorted.map fun file => (dir.join (denoted file), file.2)).map Prod.fst =
      (sorted.map denoted).map dir.join := by
    simp only [List.map_map, Function.comp_def]
  rw [joined, List.length_map, perm.length_eq] at count
  rw [listed, count, ← (perm.map denoted).nodup_iff]
  refine ⟨List.Nodup.of_map _, fun distinct => List.Nodup.map_on ?_ distinct⟩
  intro p first q second same
  obtain ⟨file, known, rfl⟩ := List.mem_map.mp first
  obtain ⟨other, also, rfl⟩ := List.mem_map.mp second
  exact Path.joinSame (inner file (perm.mem_iff.mp known)) (inner other (perm.mem_iff.mp also)) same

end Targets

theorem filesInPlace (distinct : (files.map Prod.fst).Nodup)
    (inner : ∀ file ∈ files, (denoted file).Inner)
    (ok : writeFiles tree settings files parses = (after, .ok paths)) :
    ∃ dir, root settings = .ok dir ∧
      (∀ file ∈ files, Last files file →
        after.find? (dir.join (denoted file)) = some (.file file.2)) ∧
      (paths.length = files.length ↔ (files.map denoted).Nodup) := by
  obtain ⟨dir, below, rfl, progress⟩ := writtenAll ok
  refine ⟨dir, below, fun file member last => ?_, targetsCount inner⟩
  have held : (dir.join (denoted file), file.2) ∈ (targets dir files).entries :=
    Table.findPresent.mp (targetsLast inner distinct member last)
  obtain ⟨place, located⟩ := progress.located _ held
  have apart : ∀ target ∈ (targets dir files).entries,
      after.locate target.1 = .ok (.named place) → target.1 = dir.join (denoted file) := by
    intro target listed same
    obtain ⟨p, within, equal⟩ := targetsInner inner (List.mem_map.mpr ⟨target, listed, rfl⟩)
    rw [← equal, Path.joinInner within] at same ⊢
    rw [Path.joinInner (inner file member)] at located ⊢
    rw [FileTree.placesApart within.plain (inner file member).plain same located]
  refine FileTree.findText located ?_
  rw [progress.texts]
  exact Writer.overlaidHere held located apart (targets dir files).distinct

/- Two plugins that write one file under two path texts, which is no conflict to the buffer. -/
namespace Sample

def writes (name path text : String) : Provider :=
  { name := name, kind := name
    provide := fun _ _ =>
      .share
        (fun space =>
          let (_, space, outcome) :=
            Builder.applyAll [.text text, .emit false] (Builder.start path name) space
          (space, outcome.map (fun _ => .null)))
        .finish }

def input : RunInput :=
  { registry := { providers := [writes "p" "a//b.txt" "1", writes "q" "a/b.txt" "2"] }
    targets := [.bare "p", .bare "q"] }

def spellings : List (String × String) :=
  [("a//b.txt", "1"), ("a/b.txt", "2")]

def empty : FileTree :=
  { tags := ["0"] }

def single : FileTree :=
  { empty with
    entries := ⟨[(["work", "generated"], .directory), (["work", "generated", "a"], .directory),
      (["work", "generated", "a", "b.txt"], .file "2")], by decide⟩ }

theorem spellingsInner : ∀ file ∈ spellings, (denoted file).Inner := by
  intro file member
  simp only [spellings, List.mem_cons, List.not_mem_nil, or_false] at member
  rcases member with rfl | rfl <;> exact ⟨by decide, by decide⟩

theorem spellingsWritten : writeFiles empty {} spellings =
    (single, .ok [Path.parse "generated/a/b.txt"]) := by
  cbv

theorem laterInPlace : writeFiles empty {} spellings = (single, .ok [Path.parse "generated/a/b.txt"]) ∧
    single.find? ((Path.parse "generated").join (Path.parse "a/b.txt")) = some (.file "2") := by
  obtain ⟨dir, below, held, _⟩ := filesInPlace (by decide) spellingsInner spellingsWritten
  cases below
  refine ⟨spellingsWritten, held ("a/b.txt", "2") (by decide) fun other member _ => ?_⟩
  simp only [spellings, List.mem_cons, List.not_mem_nil, or_false] at member
  rcases member with rfl | rfl <;> decide

theorem inputRuns : ∃ trace result, Run.run input = (trace, .ok result) ∧ result.files = spellings := by
  have files : (Run.run input).2.toOption.map RunResult.files = some spellings := by decide +kernel
  cases ended : Run.run input with
  | mk trace outcome =>
    rw [ended] at files
    cases outcome with
    | error e => cases files
    | ok result => exact ⟨trace, result, rfl, Option.some.inj files⟩

theorem fileLost : ¬ ∀ (input : RunInput) (trace : RunTrace) (result : RunResult) (settings : Settings)
    (tree after : FileTree) (paths : List Path), Run.run input = (trace, .ok result) →
    (∀ file ∈ result.files, (denoted file).Inner) →
    writeFiles tree settings result.files = (after, .ok paths) →
    ∃ dir, root settings = .ok dir ∧
      (∀ file ∈ result.files, after.find? (dir.join (denoted file)) = some (.file file.2)) ∧
      paths.length = result.files.length := by
  intro claim
  obtain ⟨trace, result, ran, files⟩ := inputRuns
  have held := claim input trace result {} empty single
  rw [files] at held
  obtain ⟨dir, _, _, count⟩ := held _ ran spellingsInner spellingsWritten
  cases count

end Sample
end Output
end Codegen
