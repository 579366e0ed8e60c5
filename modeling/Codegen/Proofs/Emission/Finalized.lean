import Codegen.Proofs.Emission.History
import Codegen.Proofs.Outcome

/-! Finalizing drafts of distinct paths, as those of a history are. It succeeds if every draft becomes a
text; then each path holds the text of its draft, a path that had text before is marked as mixed, in
the order of the drafts, the references without a symbol are reported, and nothing else changes. -/
namespace Codegen.Emissions

variable {serializer : Serializer} {symbols : SymbolRegistry} {e next : Emissions}

def draftContent (serializer : Serializer) (symbols : SymbolRegistry) (draft : Draft) :
    Except Error String :=
  (resolveImports symbols draft draft.imports).2.bind
    (fun s => draftText serializer draft (Statement.merge s))

def mark (writers : Table String (List String)) (draft : Draft) : Option (String × List String) :=
  (writers.find? draft.path).map (fun plugins => (draft.path, Text.extend plugins draft.plugins))

def noted (symbols : SymbolRegistry) (e : Emissions) (draft : Draft) : Emissions :=
  { e with unresolved := e.unresolved ++ (resolveImports symbols draft draft.imports).1 }

def placed (symbols : SymbolRegistry) (e : Emissions) (draft : Draft) (content : String) : Emissions :=
  { noted symbols e draft with
    mixed := match mark e.writers draft with
      | some entry => e.mixed.put entry.1 entry.2
      | none => e.mixed
    files := e.files.put draft.path ⟨draft.path, content, draft.plugin⟩ }

theorem finalizeDraftOk {draft : Draft} {content : String}
    (ok : draftContent serializer symbols draft = .ok content) :
    finalizeDraft serializer symbols e draft = (placed symbols e draft content, .ok ()) := by
  simp only [draftContent] at ok
  simp only [finalizeDraft, ok, placed, mark, noted]
  cases e.writers.find? draft.path <;> rfl

theorem finalizeDraftError {draft : Draft} {cause : Error}
    (failed : draftContent serializer symbols draft = .error cause) :
    finalizeDraft serializer symbols e draft = (noted symbols e draft, .error cause) := by
  simp only [draftContent] at failed
  simp only [finalizeDraft, failed, noted]

structure Turned (serializer : Serializer) (symbols : SymbolRegistry) (drafts : List Draft)
    (e next : Emissions) : Prop where
  writers : next.writers = e.writers
  kept : next.drafts = e.drafts
  unresolved : next.unresolved = e.unresolved ++
    drafts.flatMap (fun draft => (resolveImports symbols draft draft.imports).1)
  texts : ∀ draft ∈ drafts, ∃ content, draftContent serializer symbols draft = .ok content ∧
    next.files.find? draft.path = some ⟨draft.path, content, draft.plugin⟩
  others : ∀ path ∉ drafts.map Draft.path, next.files.find? path = e.files.find? path

structure Finalized (serializer : Serializer) (symbols : SymbolRegistry) (drafts : List Draft)
    (e next : Emissions) : Prop extends Turned serializer symbols drafts e next where
  mixed : next.mixed.entries = e.mixed.entries ++ drafts.filterMap (mark e.writers)

theorem turnedAll {drafts : List Draft} (distinct : (drafts.map Draft.path).Nodup)
    (ok : finalizeDrafts serializer symbols drafts e = (next, .ok ())) :
    Turned serializer symbols drafts e next := by
  induction drafts generalizing e with
  | nil =>
    cases ok
    exact ⟨rfl, rfl, by simp, by simp, fun _ _ => rfl⟩
  | cons draft rest ih =>
    obtain ⟨first, distinct⟩ := List.nodup_cons.mp distinct
    simp only [finalizeDrafts] at ok
    cases content : draftContent serializer symbols draft with
    | error cause => simp [finalizeDraftError content] at ok
    | ok content' =>
      rw [finalizeDraftOk content] at ok
      have files : ∀ path, (placed symbols e draft content').files.find? path =
          if path = draft.path then some ⟨draft.path, content', draft.plugin⟩
          else e.files.find? path := fun path => Table.findPut e.files draft.path path _
      have tail := ih distinct ok
      refine ⟨tail.writers, tail.kept, ?_, ?_, ?_⟩
      · rw [tail.unresolved, List.flatMap_cons, ← List.append_assoc]
        rfl
      · intro other member
        rcases List.mem_cons.mp member with rfl | inside
        · refine ⟨content', content, ?_⟩
          rw [tail.others _ first, files, if_pos rfl]
        · exact tail.texts other inside
      · intro path outside
        rw [List.map_cons, List.mem_cons, not_or] at outside
        rw [tail.others path outside.2, files, if_neg outside.1]

theorem placedMixed (symbols : SymbolRegistry) {draft : Draft} (content : String) (fresh : draft.path ∉ e.mixed.keys) :
    (placed symbols e draft content).mixed.entries =
      e.mixed.entries ++ (mark e.writers draft).toList := by
  simp only [placed, mark]
  cases e.writers.find? draft.path with
  | none => simp
  | some plugins => exact Table.entriesPutFresh fresh _

theorem mixedAll {drafts : List Draft} (distinct : (drafts.map Draft.path).Nodup)
    (fresh : ∀ draft ∈ drafts, draft.path ∉ e.mixed.keys)
    (ok : finalizeDrafts serializer symbols drafts e = (next, .ok ())) :
    next.mixed.entries = e.mixed.entries ++ drafts.filterMap (mark e.writers) := by
  induction drafts generalizing e with
  | nil =>
    cases ok
    simp
  | cons draft rest ih =>
    obtain ⟨first, distinct⟩ := List.nodup_cons.mp distinct
    simp only [finalizeDrafts] at ok
    cases content : draftContent serializer symbols draft with
    | error cause => simp [finalizeDraftError content] at ok
    | ok content' =>
      rw [finalizeDraftOk content] at ok
      have mixed := placedMixed symbols content' (fresh draft List.mem_cons_self)
      have apart : ∀ other ∈ rest, other.path ≠ draft.path := fun other member same =>
        first (same ▸ List.mem_map.mpr ⟨other, member, rfl⟩)
      have later : ∀ other ∈ rest, other.path ∉ (placed symbols e draft content').mixed.keys := by
        intro other member known
        simp only [Table.keys, mixed, List.map_append, List.mem_append] at known
        rcases known with old | same
        · exact fresh other (List.mem_cons_of_mem _ member) old
        · simp only [mark, Option.toList_map, List.map_map, List.mem_map, Function.comp_apply] at same
          obtain ⟨_, _, equal⟩ := same
          exact apart other member equal.symm
      have same : (placed symbols e draft content').writers = e.writers := rfl
      rw [ih distinct later ok, mixed, List.append_assoc, same, List.filterMap_cons]
      cases mark e.writers draft <;> simp

theorem finalizedAll {drafts : List Draft} (distinct : (drafts.map Draft.path).Nodup)
    (fresh : ∀ draft ∈ drafts, draft.path ∉ e.mixed.keys)
    (ok : finalizeDrafts serializer symbols drafts e = (next, .ok ())) :
    Finalized serializer symbols drafts e next :=
  ⟨turnedAll distinct ok, mixedAll distinct fresh ok⟩

theorem finalizesAll {drafts : List Draft} (each : ∀ draft ∈ drafts, ∃ content,
    draftContent serializer symbols draft = .ok content) :
    ∃ next, finalizeDrafts serializer symbols drafts e = (next, .ok ()) := by
  induction drafts generalizing e with
  | nil => exact ⟨e, rfl⟩
  | cons draft rest ih =>
    obtain ⟨content, ok⟩ := each draft List.mem_cons_self
    simp only [finalizeDrafts, finalizeDraftOk ok]
    exact ih fun other member => each other (List.mem_cons_of_mem _ member)

theorem finalizeOk {paths : List String} :
    e.finalize serializer symbols = (next, .ok paths) ↔
      ∃ last, finalizeDrafts serializer symbols e.drafts.values e = (last, .ok ()) ∧
        next = { last with drafts := Table.empty } ∧ paths = e.drafts.values.map (·.path) := by
  unfold finalize
  split
  · rename_i last ok
    constructor
    · intro same
      cases same
      exact ⟨last, ok, rfl, rfl⟩
    · intro ended
      obtain ⟨other, same, rfl, rfl⟩ := ended
      rw [ok] at same
      cases same
      rfl
  · rename_i last cause failed
    constructor
    · intro same
      cases same
    · intro ended
      obtain ⟨other, same, _⟩ := ended
      rw [failed] at same
      cases same

theorem finalizeRefused {draft : Draft} {cause : Error} (held : e.drafts.values = [draft])
    (failed : draftContent serializer symbols draft = .error cause) :
    e.finalize serializer symbols = (noted symbols e draft, .error cause) := by
  simp [finalize, held, finalizeDrafts, finalizeDraftError failed]

theorem finalizeCompleted {paths : List String}
    (ok : (e.finalize serializer symbols).2.toOption = some paths) :
    e.finalize serializer symbols = ((e.finalize serializer symbols).1, .ok paths) := by
  cases finished : e.finalize serializer symbols with
  | mk after result =>
    rw [finished] at ok
    cases result with
    | error cause => cases ok
    | ok found =>
      cases ok
      rfl

end Codegen.Emissions

namespace Codegen.History

variable {writes : List Write} {serializer : Serializer} {symbols : SymbolRegistry}
  {after : Emissions} {paths : List String}

theorem draftPathsFiled : ((written writes).drafts.values.map Draft.path) = draftPaths writes := by
  have recorded := recordedRun writes
  rw [← recorded.drafts]
  exact Table.valuesKeyed recorded.filed

theorem finalizedRun (completed : (written writes).finalize serializer symbols = (after, .ok paths)) :
    ∃ last, Emissions.Finalized serializer symbols (written writes).drafts.values (written writes) last ∧
      after = { last with drafts := Table.empty } ∧ paths = draftPaths writes := by
  obtain ⟨last, ok, equal, listed⟩ := Emissions.finalizeOk.mp completed
  have distinct : ((written writes).drafts.values.map Draft.path).Nodup := by
    rw [draftPathsFiled]
    exact Text.firstsDistinct _
  have fresh (draft : Draft) (_ : draft ∈ (written writes).drafts.values) :
      draft.path ∉ (written writes).mixed.keys := by
    rw [(recordedRun writes).mixed]
    exact List.not_mem_nil
  exact ⟨last, Emissions.finalizedAll distinct fresh ok, equal, listed.trans draftPathsFiled⟩

theorem completesRun : (∃ after paths, (written writes).finalize serializer symbols = (after, .ok paths)) ↔
    ∀ draft ∈ (written writes).drafts.values,
      ∃ content, Emissions.draftContent serializer symbols draft = .ok content := by
  constructor
  · intro completes draft member
    obtain ⟨after, paths, completed⟩ := completes
    obtain ⟨last, finalized, _⟩ := finalizedRun completed
    obtain ⟨content, ok, _⟩ := finalized.texts draft member
    exact ⟨content, ok⟩
  · intro each
    obtain ⟨last, ok⟩ := Emissions.finalizesAll (e := written writes) each
    exact ⟨_, _, Emissions.finalizeOk.mpr ⟨last, ok, rfl, rfl⟩⟩

theorem finalizedPlaced (completed : (written writes).finalize serializer symbols = (after, .ok paths))
    (path : String) : (∀ file, after.files.find? path = some file → file.path = path) ∧
      (path ∈ after.files.keys ↔ path ∈ textPaths writes ∨ path ∈ draftPaths writes) := by
  obtain ⟨last, finalized, rfl, _⟩ := finalizedRun completed
  have recorded := recordedRun writes
  rw [Table.keyFound]
  by_cases drafted : path ∈ draftPaths writes
  · rw [← draftPathsFiled] at drafted
    obtain ⟨draft, member, rfl⟩ := List.mem_map.mp drafted
    obtain ⟨content, _, held⟩ := finalized.texts draft member
    refine ⟨fun file found => ?_, iff_of_true ⟨_, held⟩ (.inr (draftPathsFiled ▸ drafted))⟩
    have same := held.symm.trans found
    cases same
    rfl
  · have same : last.files.find? path = (written writes).files.find? path :=
      finalized.others path (draftPathsFiled ▸ drafted)
    refine ⟨fun file found => (recorded.owned path file (same ▸ found)).1, ?_⟩
    have text : (∃ file, last.files.find? path = some file) ↔ path ∈ textPaths writes := by
      rw [same, textFound]
    exact text.trans (or_iff_left drafted).symm

end Codegen.History
