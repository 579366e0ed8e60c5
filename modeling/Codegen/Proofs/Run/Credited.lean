import Codegen.Proofs.Emission.Attribution
import Codegen.Proofs.Emission.Conflict
import Codegen.Proofs.Emission.Drafts
import Codegen.Proofs.Run.Finished

/-! Who is credited with a file. The draft of a path names the plugins that gave fragments to it; its
banner shows these names, and the report of a path with both a text and a draft lists them behind the
writers of the text. They are the contributors, each once and in the order in which they came, exactly
if their names are read back from the attribution as they are. -/
namespace Codegen

namespace History

open Attribution (Legible attributed attributedSnoc namesListed)

def contributors (writes : List Write) (path : String) : List String :=
  (draftsOf writes path).map DraftWrite.plugin

inductive Listed (contributed : List String) : Option Draft → Prop where
  | nobody (unwritten : contributed = []) : Listed contributed none
  | draft {draft : Draft} (written : contributed ≠ []) (attribution : draft.plugin = attributed contributed)
      (exact : draft.plugins = contributed.eraseDups ↔ Legible contributed) :
      Listed contributed (some draft)

theorem listedDraft {contributed : List String} {draft : Draft} (written : contributed ≠ [])
    (attribution : draft.plugin = attributed contributed) : Listed contributed (some draft) := by
  refine .draft written attribution ?_
  rw [Draft.plugins, attribution]
  exact namesListed written

section Contributors

variable {writes : List Write} {start : Emissions} {path : String}

theorem contributorsSnoc (writes : List Write) (d : DraftWrite) :
    contributors (writes ++ [.draft d]) d.target = contributors writes d.target ++ [d.plugin] := by
  simp [contributors, draftsOfSnoc]

theorem contributorsListed (writes : List Write) (fresh : start.drafts.find? path = none) :
    Listed (contributors writes path) ((writes.foldl Write.apply start).drafts.find? path) := by
  induction writes using List.reverseRecOn with
  | nil => exact fresh ▸ .nobody rfl
  | append_singleton writes w ih =>
    rw [List.foldl_append, List.foldl_cons, List.foldl_nil]
    cases text : w.text? with
    | some t =>
      rw [appliedText text, contributors, draftsOfText text]
      exact ih
    | none =>
      cases w with
      | emit | append => cases text
      | draft d =>
        by_cases same : path = d.target
        · subst same
          rw [contributorsSnoc]
          generalize held : (writes.foldl Write.apply start).drafts.find? d.target = found at ih
          cases ih with
          | nobody unwritten =>
            rw [draftFresh held, Table.findPut, if_pos rfl, unwritten]
            exact listedDraft (by simp) rfl
          | draft written attribution exact_ =>
            rw [draftLonger held, Table.findPut, if_pos rfl]
            exact listedDraft (by simp) (by rw [attributedSnoc written, attribution])
        · rw [contributors, draftsOfOther same]
          cases held : (writes.foldl Write.apply start).drafts.find? d.target with
          | none =>
            rw [draftFresh held, Table.findPut, if_neg same]
            exact ih
          | some old =>
            rw [draftLonger held, Table.findPut, if_neg same]
            exact ih

end Contributors

def sharersOf (writes : List Write) (draft : Draft) : List String :=
  writersOf writes draft.path ++ draft.plugins.eraseDups.filter (· ∉ writersOf writes draft.path)

inductive Reported (writes : List Write) : Except Error Unit → Prop where
  | shared {path : String} (first : First (Shared writes) (textPaths writes) path) :
      Reported writes (.error (.emitConflict path (writersOf writes path)))
  | mixed {draft : Draft} (single : ∀ other, ¬Shared writes other)
      (first : First (Mixed writes) (draftPaths writes) draft.path)
      (drafted : (written writes).drafts.find? draft.path = some draft) :
      Reported writes (.error (.emitConflict draft.path (sharersOf writes draft)))
  | clear (single : ∀ other, ¬Shared writes other) (apart : ∀ other, ¬Mixed writes other) :
      Reported writes (.ok ())

section Conflicts

variable {writes : List Write} {serializer : Serializer} {symbols : SymbolRegistry} {after : Emissions}
  {paths : List String}

theorem markSharers {draft : Draft} {entry : String × List String}
    (marked : Emissions.mark (written writes).writers draft = some entry) :
    entry = (draft.path, sharersOf writes draft) := by
  obtain ⟨plugins, found, rfl⟩ := Option.map_eq_some_iff.mp marked
  have writers := writersFind (recordedRun writes).writers draft.path
  rw [found, Option.getD_some] at writers
  rw [writers, Text.extendFirsts]
  rfl

/- Where nobody shares a path, a conflict is one that finalizing a draft has noted. -/
theorem conflictMarked (completed : (written writes).finalize serializer symbols = (after, .ok paths))
    (single : ∀ other, ¬Shared writes other) {path : String} {plugins : List String}
    (refused : after.validate = .error (.emitConflict path plugins)) :
    ∃ draft ∈ (written writes).drafts.values,
      Emissions.mark (written writes).writers draft = some (path, plugins) := by
  obtain ⟨last, finalized, rfl, _⟩ := finalizedRun completed
  have conflict : ({ last with drafts := Table.empty } : Emissions).conflict? = some (path, plugins) := by
    unfold Emissions.validate at refused
    split at refused
    · rename_i found
      cases refused
      exact found
    · cases refused
  rcases Option.or_eq_some_iff.mp conflict with several | ⟨_, noted⟩
  · have member : (path, plugins) ∈ last.writers.entries := List.mem_of_find?_eq_some several
    rw [finalized.writers, (recordedRun writes).writers] at member
    obtain ⟨shared, _, same⟩ := List.mem_map.mp member
    cases same
    have longer := List.find?_some several
    exact absurd (sharedWriters.mp (of_decide_eq_true longer)) (single path)
  · have member : (path, plugins) ∈ last.mixed.entries := List.mem_of_head? noted
    rw [finalized.mixed, (recordedRun writes).mixed] at member
    exact List.mem_filterMap.mp member

theorem conflictReported (completed : (written writes).finalize serializer symbols = (after, .ok paths)) :
    Reported writes after.validate := by
  have verdict := verdictCompleted completed
  generalize answer : after.validate = answered at verdict
  cases verdict with
  | shared first => exact .shared first
  | mixed single first plugins =>
    obtain ⟨draft, member, marked⟩ := conflictMarked completed single answer
    cases markSharers marked
    obtain ⟨key, found⟩ := Table.valuesMember.mp member
    exact .mixed single first ((recordedRun writes).filed key draft found ▸ found)
  | clear single apart => exact .clear single apart

end Conflicts

end History

namespace Run

open Emissions (retouchedSet retouchedValid)
open History (written draftPaths Listed Reported contributors)

inductive Titled (finishing : Finishing) (path : String) (plugins : List String) (file : File) : File → Prop where
  | formatted {content : String} {before after : ToolState}
      (formatted : formatFile finishing.tools finishing.formatter path file.content before =
        (.ok content, after)) :
      Titled finishing path plugins file { file with content := addBanner finishing plugins content }

def Bannered (input : RunInput) (symbols : SymbolRegistry) (writes : List Write) (next : Emissions) : Prop :=
  ∃ finishing : Finishing,
    finishing.banner = input.settings.addBanner.truthy ∧ finishing.source = input.model.source ∧
      ∀ draft ∈ (written writes).allDrafts, ∃ content file,
        Emissions.draftContent input.serializer symbols draft = .ok content ∧
          next.files.find? draft.path = some file ∧
            Titled finishing draft.path draft.plugins ⟨draft.path, content, draft.plugin⟩ file

theorem setFound {e : Emissions} {path : String} {file : File} (held : e.files.find? path = some file)
    (content : String) : (e.setContent path content).files.find? path = some { file with content := content } := by
  rw [Emissions.setContent, held]
  exact (Table.findPut e.files path path _).trans (if_pos rfl)

theorem finishedTitled {finishing : Finishing} {files : List (String × List String)} {e next : Emissions}
    {tool after : ToolState} (distinct : (files.map Prod.fst).Nodup)
    (normal : ∀ path ∈ files.map Prod.fst, Path.normalize path = path)
    (ok : finishFiles finishing files e tool = (next, after, .ok ())) :
    ∀ entry ∈ files, ∀ file, e.files.find? entry.1 = some file →
      ∃ done, next.files.find? entry.1 = some done ∧ Titled finishing entry.1 entry.2 file done := by
  induction files generalizing e tool with
  | nil => simp
  | cons first rest ih =>
    obtain ⟨path, plugins⟩ := first
    obtain ⟨fresh, distinct⟩ := List.nodup_cons.mp distinct
    obtain ⟨same, normal⟩ := List.forall_mem_cons.mp normal
    have apart (entry : String × List String) (member : entry ∈ rest) : entry.1 ≠ path :=
      fun equal => fresh (List.mem_map.mpr ⟨entry, member, equal⟩)
    simp only [finishFiles, Emissions.file?, same] at ok
    cases held : e.files.find? path with
    | none =>
      rw [held] at ok
      intro entry member file found
      rcases List.mem_cons.mp member with rfl | inside
      · cases held.symm.trans found
      · exact ih distinct normal ok entry inside file found
    | some file =>
      simp only [held] at ok
      split at ok
      · cases ok
      · rename_i content later formatted
        intro entry member old found
        rcases List.mem_cons.mp member with rfl | inside
        · cases held.symm.trans found
          have kept := (finishedFiles (List.Subset.refl _) ok).others path fresh
          exact ⟨_, kept.trans (setFound held _), .formatted formatted⟩
        · have other := (retouchedSet (List.mem_singleton_self path) e (addBanner finishing plugins content)).others
            entry.1 (List.mem_singleton.not.mpr (apart entry inside))
          exact ih distinct normal ok entry inside old (other.trans found)

section Finish

variable {writes : List Write} {input : RunInput} {space next : Workspace} {tool after : ToolState}

theorem draftPathsNormal {path : String} (member : path ∈ draftPaths writes) : Path.normalize path = path := by
  obtain ⟨d, _, rfl⟩ := List.mem_map.mp (List.mem_eraseDups.mp member)
  exact Path.normalizeTwice d.path

/- The drafts keep their plugins while they are finalized, so that each text meets its own. -/
theorem finishBannered (history : space.emissions = written writes)
    (ok : finish input space tool = (next, after, .ok ())) :
    Bannered input space.symbols writes next.emissions := by
  unfold finish at ok
  rw [history] at ok
  split at ok
  · cases ok
  · rename_i emissions paths finalized
    split at ok
    · cases ok
    · rename_i chosen formatter
      simp only [Prod.mk.injEq] at ok
      obtain ⟨rfl, _, finished⟩ := ok
      obtain ⟨last, turned, rfl, _⟩ := History.finalizedRun finalized
      let finishing : Finishing := ⟨input.tools, (usable input.tools tool chosen).1,
        input.settings.addBanner.truthy, input.model.source⟩
      refine ⟨finishing, rfl, rfl, fun draft member => ?_⟩
      obtain ⟨content, text, held⟩ := turned.texts draft member
      have listed : ((written writes).allDrafts.map fun draft => (draft.path, draft.plugins)).map Prod.fst =
          draftPaths writes := by
        rw [← History.draftPathsFiled, List.map_map]
        rfl
      have titled := finishedTitled (listed ▸ Text.firstsDistinct _)
        (fun path inside => draftPathsNormal (listed ▸ inside)) (Prod.ext rfl (Prod.ext rfl finished))
      obtain ⟨file, found, done⟩ := List.forall_mem_map.mp titled draft member _ held
      exact ⟨content, file, text, found, done⟩

theorem finishReported (history : space.emissions = written writes)
    (ok : finish input space tool = (next, after, .ok ())) : Reported writes next.emissions.validate := by
  obtain ⟨finalized, _, retouched⟩ := finishedRun ok
  rw [retouchedValid retouched]
  exact History.conflictReported (history ▸ finalized)

end Finish

structure Credited (writes : List Write) : Prop where
  listed : ∀ start path, start.drafts.find? path = none →
    Listed (contributors writes path) ((writes.foldl Write.apply start).drafts.find? path)
  finalized : ∀ serializer symbols after paths,
    (written writes).finalize serializer symbols = (after, .ok paths) → Reported writes after.validate
  finished : ∀ input space next tool after, space.emissions = written writes →
    finish input space tool = (next, after, .ok ()) →
      Bannered input space.symbols writes next.emissions ∧ Reported writes next.emissions.validate

theorem writesCredited (writes : List Write) : Credited writes where
  listed _ _ fresh := History.contributorsListed writes fresh
  finalized _ _ _ _ completed := History.conflictReported completed
  finished _ _ _ _ _ history ok := ⟨finishBannered history ok, finishReported history ok⟩

/- A name with a comma and a blank is read back as two and is never found among them, so that it comes
again with each contribution; a draft of the empty name is read as one of nobody. -/
namespace Sample

def page (plugin : String) : Write :=
  .draft { path := "a.py", fragments := [.text "x = 1"], plugin := plugin }

def named (plugins : List String) : Option (List String) :=
  ((written (plugins.map page)).drafts.find? "a.py").map Draft.plugins

theorem nameParted :
    (contributors (["a, b", "a, b"].map page) "a.py").eraseDups = ["a, b"] ∧
      named ["a, b", "a, b"] = some ["a", "b", "a", "b"] ∧
        (contributors ([""].map page) "a.py").eraseDups = [""] ∧ named [""] = some [] := by
  decide

end Sample

end Run
end Codegen
