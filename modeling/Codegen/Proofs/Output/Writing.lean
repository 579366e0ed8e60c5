import Codegen.Output
import Codegen.Proofs.FileTree

/-! Writing a set of files. Each target that is written changes the text at the place its path leads to and
nothing else, and a target that fails leaves all texts alone. So the files after a failure are those
before it with the targets written so far put over them. -/
namespace Codegen

open FileTree (Enlarged Grown Written)

variable {tree between after : FileTree}

namespace Writer

variable {writer : Writer} {path : Path} {content : String} {validate : Bool} {outcome : Except Error Unit}

inductive Wrote (writer : Writer) (tree : FileTree) (path : Path) (content : String) (validate : Bool) :
    FileTree → Except Error Unit → Prop where
  | written {after place} (placed : Written tree after path content place) :
      Wrote writer tree path content validate after (.ok ())
  | invalid {after e} (cause : writer.checkFile path content validate = .error e)
      (same : Enlarged tree after) : Wrote writer tree path content validate after (.error e)
  | impossible {after e} (same : Enlarged tree after) :
      Wrote writer tree path content validate after (.error (.fileSystem e))

theorem wroteAfter (first : Enlarged tree between)
    (wrote : Wrote writer between path content validate after outcome) :
    Wrote writer tree path content validate after outcome := by
  cases wrote with
  | written placed =>
    exact .written ⟨FileTree.grownTrans first.grown placed.grown, placed.located,
      first.texts ▸ placed.texts⟩
  | invalid cause same => exact .invalid cause (FileTree.enlargedTrans first same)
  | impossible same => exact .impossible (FileTree.enlargedTrans first same)

theorem wroteAtomic (ended : writer.writeAtomic tree path content validate = (after, outcome)) :
    Wrote writer tree path content validate after outcome := by
  unfold writeAtomic at ended
  split at ended
  · cases ended
    exact .impossible (FileTree.enlargedSame tree)
  · rename_i between temporary made
    have kept := FileTree.temporaryKept made
    split at ended
    · rename_i cause
      cases ended
      exact .invalid cause (FileTree.enlargedBack kept)
    · split at ended
      · rename_i replaced
        cases ended
        obtain ⟨place, placed⟩ := FileTree.writtenReplaced kept replaced
        exact .written placed
      · cases ended
        exact .impossible (FileTree.enlargedBack kept)

theorem wroteInPlace (ended : writer.writeInPlace tree path content validate = (after, outcome)) :
    Wrote writer tree path content validate after outcome := by
  unfold writeInPlace at ended
  split at ended
  · rename_i cause
    cases ended
    exact .invalid cause (FileTree.enlargedSame tree)
  · split at ended
    · rename_i written
      cases ended
      obtain ⟨place, placed⟩ := FileTree.writtenFile written
      exact .written placed
    · cases ended
      exact .impossible (FileTree.enlargedSame tree)

theorem wrote (ended : writer.write tree path content validate = (after, outcome)) :
    Wrote writer tree path content validate after outcome := by
  unfold write at ended
  split at ended
  · rename_i stopped
    cases ended
    exact .impossible (FileTree.ensuredDirectories stopped)
  · rename_i between prepared
    refine wroteAfter (FileTree.ensuredDirectories prepared) ?_
    split at ended
    · exact wroteAtomic ended
    · exact wroteInPlace ended

def overlaid (after : FileTree) (targets : List (Path × String)) (texts : List String → Option String) :
    List String → Option String :=
  targets.foldl
    (fun texts target => match after.locate target.1 with
      | .ok (.named place) => Function.update texts place (some target.2)
      | _ => texts)
    texts

structure Progress (tree after : FileTree) (done : List (Path × String)) : Prop where
  grown : Grown tree after
  located : ∀ target ∈ done, ∃ place, after.locate target.1 = .ok (.named place)
  texts : after.text? = overlaid after done tree.text?

inductive Ended (writer : Writer) (validate : Bool) (targets : List (Path × String)) (tree : FileTree) :
    FileTree → Except Error Unit → Prop where
  | completed {after : FileTree} (progress : Progress tree after targets) :
      Ended writer validate targets tree after (.ok ())
  | stopped (done : List (Path × String)) {path content rest after e}
      (split : targets = done ++ (path, content) :: rest)
      (cause : writer.checkFile path content validate = .error e ∨ ∃ failure, e = .fileSystem failure)
      (progress : Progress tree after done) : Ended writer validate targets tree after (.error e)

variable {done targets : List (Path × String)}

theorem progressNone (same : Enlarged tree after) : Progress tree after [] :=
  ⟨same.grown, fun _ member => (List.not_mem_nil member).elim, same.texts⟩

theorem progressNext {place : List String} (placed : Written tree between path content place)
    (progress : Progress between after done) : Progress tree after ((path, content) :: done) := by
  have located := FileTree.locateGrown progress.grown placed.located
  refine ⟨FileTree.grownTrans placed.grown progress.grown, fun target member => ?_, ?_⟩
  · rcases List.mem_cons.mp member with rfl | later
    · exact ⟨place, located⟩
    · exact progress.located target later
  · rw [progress.texts, placed.texts, overlaid, overlaid, List.foldl_cons]
    simp only [located]

theorem endedAll (ended : writer.writeAll validate targets tree = (after, outcome)) :
    Ended writer validate targets tree after outcome := by
  induction targets generalizing tree with
  | nil =>
    cases ended
    exact .completed (progressNone (FileTree.enlargedSame _))
  | cons target rest ih =>
    obtain ⟨path, content⟩ := target
    unfold writeAll at ended
    split at ended
    · rename_i between written
      cases wrote written with | written placed =>
      cases ih ended with
      | completed progress => exact .completed (progressNext placed progress)
      | stopped done split cause progress =>
        exact .stopped _ (by rw [split]; rfl) cause (progressNext placed progress)
    · rename_i failed
      cases wrote ended with
      | written placed => exact (failed _ ended).elim
      | invalid cause same => exact .stopped [] rfl (.inl cause) (progressNone same)
      | impossible same => exact .stopped [] rfl (.inr ⟨_, rfl⟩) (progressNone same)

end Writer

namespace Output

inductive Failed (parses : String → Bool) (tree : FileTree) (settings : Settings)
    (files : List (String × String)) : FileTree → Error → Prop where
  | unreadable (cause : ShapeError) : Failed parses tree settings files tree (.shape cause)
  | refused (existing : List String) : Failed parses tree settings files tree (.outputsExist existing)
  | stopped {dir after e} (done : List (Path × String)) {path content rest}
      (below : root settings = .ok dir)
      (split : (targets dir files).entries = done ++ (path, content) :: rest)
      (cause : (parses content = false ∧ e = .write path.text Writer.invalidReason) ∨
        ∃ failure, e = .fileSystem failure)
      (progress : Writer.Progress tree after done) : Failed parses tree settings files after e

theorem checkRefused {parses : String → Bool} {writer : Writer} (check : writer.check = Writer.checkWith parses)
    {path : Path} {content : String} {validate : Bool} {e : Error}
    (refused : writer.checkFile path content validate = .error e) :
    parses content = false ∧ e = .write path.text Writer.invalidReason := by
  unfold Writer.checkFile at refused
  split at refused
  · rw [check, Writer.checkWith] at refused
    split at refused
    · cases refused
    · rename_i invalid
      cases refused
      exact ⟨Bool.eq_false_iff.mpr invalid, rfl⟩
  · cases refused

theorem failedFiles {parses : String → Bool} {settings : Settings} {files : List (String × String)}
    {e : Error} (failed : writeFiles tree settings files parses = (after, .error e)) :
    Failed parses tree settings files after e := by
  unfold writeFiles at failed
  split at failed
  · rename_i unread
    unfold root at unread
    split at unread <;> cases unread
    cases failed
    exact .unreadable _
  · cases failed
    exact .unreadable _
  · rename_i dir output below _
    unfold writeTargets at failed
    simp only at failed
    split at failed
    · cases failed
      exact .refused _
    · split at failed
      · cases failed
      · rename_i ended
        cases failed
        cases Writer.endedAll ended with
        | stopped done split cause progress =>
          exact .stopped done below split (cause.imp_left (checkRefused rfl)) progress

namespace Sample

def modules : List (String × String) :=
  [("a.py", "x = 1\n"), ("b.py", "(\n")]

def bare : FileTree :=
  { tags := ["0"] }

def left : FileTree :=
  { bare with
    entries := ⟨[(["work", "generated"], .directory), (["work", "generated", "a.py"], .file "x = 1\n")],
      by decide⟩ }

theorem secondRefused : writeFiles bare {} modules =
    (left, .error (.write "generated/b.py" Writer.invalidReason)) := by
  have listed : targets (Path.parse "generated") modules = ⟨[(Path.parse "generated/a.py", "x = 1\n"),
      (Path.parse "generated/b.py", "(\n")], by decide⟩ := by cbv
  change writeTargets bare {} (targets (Path.parse "generated") modules) = _
  rw [listed]
  rfl

theorem firstLeft : Failed Source.wellFormed bare {} modules left (.write "generated/b.py" Writer.invalidReason) :=
  failedFiles secondRefused

theorem textsChanged : ¬ ∀ (tree after : FileTree) (settings : Settings) (files : List (String × String))
    (path reason : String), writeFiles tree settings files = (after, .error (.write path reason)) →
    after.text? = tree.text? := by
  intro claim
  have same := congrFun (claim bare left {} modules _ _ secondRefused) ["work", "generated", "a.py"]
  exact absurd same (by decide)

end Sample
end Output
end Codegen
