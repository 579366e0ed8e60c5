import Codegen.Proofs.Emission.Conflict
import Codegen.Run

/-! Finishing the files of a run. Formatting and banners change the contents of finalized drafts and
nothing else: the paths stay, and so do other texts, the writers, the conflicts and the unresolved
references. -/
namespace Codegen

namespace Emissions

structure Retouched (paths : List String) (e next : Emissions) : Prop where
  writers : next.writers = e.writers
  mixed : next.mixed = e.mixed
  unresolved : next.unresolved = e.unresolved
  keys : next.files.keys = e.files.keys
  others : ∀ path ∉ paths, next.files.find? path = e.files.find? path
  placed : ∀ path file, next.files.find? path = some file →
    ∃ old, e.files.find? path = some old ∧ file.path = old.path

variable {paths more : List String} {e middle next : Emissions}

theorem retouchedNone (e : Emissions) (paths : List String) : Retouched paths e e :=
  ⟨rfl, rfl, rfl, rfl, fun _ _ => rfl, fun _ file found => ⟨file, found, rfl⟩⟩

theorem retouchedThen (first : Retouched paths e middle) (second : Retouched paths middle next) :
    Retouched paths e next := by
  refine ⟨second.writers.trans first.writers, second.mixed.trans first.mixed,
    second.unresolved.trans first.unresolved, second.keys.trans first.keys, ?_, ?_⟩
  · intro path outside
    rw [second.others path outside, first.others path outside]
  · intro path file found
    obtain ⟨between, held, same⟩ := second.placed path file found
    obtain ⟨old, holds, equal⟩ := first.placed path between held
    exact ⟨old, holds, same.trans equal⟩

theorem retouchedSet {path : String} (member : path ∈ paths) (e : Emissions) (content : String) :
    Retouched paths e (e.setContent path content) := by
  unfold setContent
  cases held : e.files.find? path with
  | none => exact retouchedNone e paths
  | some file =>
    have found (other : String) := Table.findPut e.files path other { file with content := content }
    refine ⟨rfl, rfl, rfl, ?_, ?_, ?_⟩
    · exact (Table.keysPut e.files path _).trans (if_pos (Table.keyFound.mpr ⟨file, held⟩))
    · intro other outside
      have apart : other ≠ path := fun same => outside (same ▸ member)
      exact (found other).trans (if_neg apart)
    · intro other next holds
      have holds := (found other).symm.trans holds
      split at holds
      · rename_i same
        cases holds
        exact ⟨file, same ▸ held, rfl⟩
      · exact ⟨next, holds, rfl⟩

theorem retouchedValid (retouched : Retouched paths e next) : next.validate = e.validate := by
  simp only [validate, conflict?, retouched.writers, retouched.mixed]

end Emissions

namespace Run

open Emissions (Retouched retouchedNone retouchedThen retouchedSet)

variable {input : RunInput}

theorem finishedFiles {finishing : Finishing} {files : List (String × List String)} {paths : List String}
    {e next : Emissions} {tool after : ToolState} (inside : files.map Prod.fst ⊆ paths)
    (ok : finishFiles finishing files e tool = (next, after, .ok ())) : Retouched paths e next := by
  induction files generalizing e tool with
  | nil =>
    cases ok
    exact retouchedNone next paths
  | cons first rest ih =>
    obtain ⟨path, plugins⟩ := first
    obtain ⟨member, inside⟩ := List.cons_subset.mp inside
    simp only [finishFiles] at ok
    split at ok
    · exact ih inside ok
    · split at ok
      · cases ok
      · exact retouchedThen (retouchedSet member e _) (ih inside ok)

inductive Finished (input : RunInput) (space next : Workspace) : Prop where
  | files {emissions : Emissions} {paths : List String}
      (finalized : space.emissions.finalize input.serializer space.symbols = (emissions, .ok paths))
      (symbols : next.symbols = space.symbols)
      (retouched : Retouched (space.emissions.allDrafts.map Draft.path) emissions next.emissions) :
      Finished input space next

theorem finishedRun {space next : Workspace} {tool after : ToolState}
    (ok : finish input space tool = (next, after, .ok ())) : Finished input space next := by
  unfold finish at ok
  split at ok
  · cases ok
  · rename_i emissions paths finalized
    split at ok
    · cases ok
    · rename_i chosen formatter
      simp only [Prod.mk.injEq] at ok
      obtain ⟨rfl, _, finished⟩ := ok
      refine .files finalized rfl (finishedFiles ?_ (Prod.ext rfl (Prod.ext rfl finished)))
      simp [Function.comp_def]

end Run
end Codegen
