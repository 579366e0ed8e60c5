import Codegen.Proofs.Emission.Finalized

/-! Conflicts of a history of writes. A path is shared if different plugins wrote text to it and mixed
if it has a text and a draft. Validating the buffer after finalizing finds the first shared path, and
only where none is shared the first mixed one. Until then the text of a path is what opened it and
what the same plugin appended. -/
namespace Codegen.History

def Shared (writes : List Write) (path : String) : Prop :=
  ∃ t ∈ texts writes, ∃ u ∈ texts writes, t.target = path ∧ u.target = path ∧ t.plugin ≠ u.plugin

def Mixed (writes : List Write) (path : String) : Prop :=
  (∃ t ∈ texts writes, t.target = path) ∧ ∃ d ∈ drafts writes, d.target = path

def First (holds : String → Prop) (paths : List String) (path : String) : Prop :=
  ∃ before after, paths = before ++ path :: after ∧ holds path ∧ ∀ other ∈ before, ¬holds other

inductive Verdict (writes : List Write) : Except Error Unit → Prop where
  | shared {path} (first : First (Shared writes) (textPaths writes) path) :
      Verdict writes (.error (.emitConflict path (writersOf writes path)))
  | mixed {path} (single : ∀ other, ¬Shared writes other)
      (first : First (Mixed writes) (draftPaths writes) path) (plugins : List String) :
      Verdict writes (.error (.emitConflict path plugins))
  | clear (single : ∀ other, ¬Shared writes other) (apart : ∀ other, ¬Mixed writes other) :
      Verdict writes (.ok ())

def Opening (writes : List Write) (path : String) (t : TextWrite) (later : List Write) : Prop :=
  ∃ before w, writes = before ++ w :: later ∧ Opens before w t ∧ t.target = path ∧
    ∀ u, Write.emit u ∈ later → u.target ≠ path

theorem sharedWriters {writes : List Write} {path : String} :
    1 < (writersOf writes path).length ↔ Shared writes path := by
  rw [writersOf, Text.firstsDiffer]
  simp only [List.mem_map, List.mem_filter, decide_eq_true_eq, Shared]
  constructor
  · intro several
    obtain ⟨_, ⟨t, ⟨first, left⟩, rfl⟩, _, ⟨u, ⟨second, right⟩, rfl⟩, differ⟩ := several
    exact ⟨t, first, u, second, left, right, differ⟩
  · intro shared
    obtain ⟨t, first, u, second, left, right, differ⟩ := shared
    exact ⟨_, ⟨t, ⟨first, left⟩, rfl⟩, _, ⟨u, ⟨second, right⟩, rfl⟩, differ⟩

theorem mixedPaths {writes : List Write} {path : String} :
    Mixed writes path ↔ path ∈ textPaths writes ∧ path ∈ draftPaths writes := by
  simp only [Mixed, textPaths, draftPaths, List.mem_eraseDups, List.mem_map]

theorem sharedPath {writes : List Write} {path : String} (shared : Shared writes path) :
    path ∈ textPaths writes := by
  obtain ⟨t, member, _, _, target, _⟩ := shared
  exact List.mem_eraseDups.mpr (List.mem_map.mpr ⟨t, member, target⟩)

/- A write that does not open the path comes after the text that did. -/
theorem openingKept {writes : List Write} {w : Write} {path : String}
    (silent : ∀ u, w = .emit u → u.target ≠ path) (opened : ∃ t later, Opening writes path t later) :
    ∃ t later, Opening (writes ++ [w]) path t later := by
  obtain ⟨t, later, before, first, split, opens, target, last⟩ := opened
  refine ⟨t, later ++ [w], before, first, by simp [split], opens, target, ?_⟩
  intro u inside
  rcases List.mem_append.mp inside with old | new
  · exact last u old
  · exact silent u (List.mem_singleton.mp new).symm

theorem openingFound {writes : List Write} {path : String} (member : path ∈ textPaths writes) :
    ∃ t later, Opening writes path t later := by
  induction writes using List.reverseRecOn with
  | nil => cases member
  | append_singleton writes w ih =>
    cases w with
    | emit t =>
      by_cases same : t.target = path
      · exact ⟨t, [], writes, .emit t, rfl, .inl rfl, same, fun _ inside => by cases inside⟩
      · have text : (Write.emit t).text? = some t := rfl
        rcases (textPathsMember text).mp member with known | equal
        · refine openingKept (fun u again => ?_) (ih known)
          cases again
          exact same
        · exact absurd equal.symm same
    | append t =>
      have text : (Write.append t).text? = some t := rfl
      by_cases known : path ∈ textPaths writes
      · exact openingKept (fun u equal => by cases equal) (ih known)
      · have equal := ((textPathsMember text).mp member).resolve_left known
        refine ⟨t, [], writes, .append t, rfl, .inr ⟨rfl, ?_⟩, equal.symm, fun _ inside => by cases inside⟩
        exact equal ▸ known
    | draft d =>
      rw [textPathsDraft] at member
      exact openingKept (fun u equal => by cases equal) (ih member)

structure Content (writes : List Write) (path : String) : Prop where
  absent : Path.normalize path ∉ textPaths writes → (written writes).file? path = none
  opened : Path.normalize path ∈ textPaths writes →
    ∃ t later, Opening writes (Path.normalize path) t later
  holds : ∀ t later, Opening writes (Path.normalize path) t later →
    (written writes).file? path =
      some ⟨t.target, t.content ++ appended t.target t.plugin later, t.plugin⟩

theorem contentRecorded (writes : List Write) (path : String) : Content writes path where
  absent := ((recordedRun writes).absent _).mpr
  opened := openingFound
  holds t later opening := by
    obtain ⟨before, w, rfl, opens, target, last⟩ := opening
    rw [Emissions.file?, ← target]
    exact contentOpened opens (target ▸ last)

section Finalizing

variable {writes : List Write}

theorem markNone {draft : Draft} : Emissions.mark (written writes).writers draft = none ↔
    draft.path ∉ textPaths writes := by
  have keys : (written writes).writers.keys = textPaths writes := by
    simp [Table.keys, (recordedRun writes).writers, Function.comp_def]
  rw [Emissions.mark, Option.map_eq_none_iff, Table.findAbsent, keys]

theorem draftsFiled {draft : Draft} (member : draft ∈ (written writes).drafts.values) :
    draft.path ∈ draftPaths writes := by
  rw [← draftPathsFiled]
  exact List.mem_map.mpr ⟨draft, member, rfl⟩

/- The marks stand in the order of the drafts, so the first mark is that of the first mixed path. -/
theorem markedFirst {entry : String × List String}
    (first : ((written writes).drafts.values.filterMap
      (Emissions.mark (written writes).writers)).head? = some entry) :
    First (Mixed writes) (draftPaths writes) entry.1 := by
  rw [List.head?_filterMap, List.findSome?_eq_some_iff] at first
  obtain ⟨before, draft, after, split, marked, earlier⟩ := first
  have place : entry.1 = draft.path := by
    obtain ⟨_, _, rfl⟩ := Option.map_eq_some_iff.mp marked
    rfl
  have text : draft.path ∈ textPaths writes := by
    by_contra outside
    rw [markNone.mpr outside] at marked
    cases marked
  refine ⟨before.map Draft.path, after.map Draft.path, ?_, ?_, ?_⟩
  · rw [← draftPathsFiled, split, place, List.map_append, List.map_cons]
  · rw [place]
    exact mixedPaths.mpr ⟨text, draftsFiled (by simp [split])⟩
  · intro other member mixed
    obtain ⟨draft, inside, rfl⟩ := List.mem_map.mp member
    exact markNone.mp (earlier draft inside) (mixedPaths.mp mixed).1

theorem markedNone (clear : ((written writes).drafts.values.filterMap
      (Emissions.mark (written writes).writers)).head? = none) (path : String) :
    ¬Mixed writes path := by
  rw [List.head?_eq_none_iff, List.filterMap_eq_nil_iff] at clear
  intro mixed
  obtain ⟨text, drafted⟩ := mixedPaths.mp mixed
  rw [← draftPathsFiled] at drafted
  obtain ⟨draft, member, rfl⟩ := List.mem_map.mp drafted
  exact markNone.mp (clear draft member) text

theorem verdictFound {after : Emissions}
    (writers : after.writers = (written writes).writers)
    (mixed : after.mixed.entries = (written writes).drafts.values.filterMap
      (Emissions.mark (written writes).writers)) :
    Verdict writes after.validate := by
  have conflict : after.conflict? =
      (((textPaths writes).find? (fun path => 1 < (writersOf writes path).length)).map
        (fun path => (path, writersOf writes path))).or
      ((written writes).drafts.values.filterMap
        (Emissions.mark (written writes).writers)).head? := by
    rw [Emissions.conflict?, writers, mixed, (recordedRun writes).writers, List.find?_map]
    rfl
  rw [Emissions.validate, conflict]
  cases shared : (textPaths writes).find? (fun path => 1 < (writersOf writes path).length) with
  | some path =>
    obtain ⟨holds, before, after, split, earlier⟩ := List.find?_eq_some_iff_append.mp shared
    refine .shared ⟨before, after, split, sharedWriters.mp (of_decide_eq_true holds), ?_⟩
    intro other member also
    have several := sharedWriters.mpr also
    simpa [several] using earlier other member
  | none =>
    have single (other : String) : ¬Shared writes other := by
      intro also
      have several := sharedWriters.mpr also
      exact List.find?_eq_none.mp shared other (sharedPath also) (decide_eq_true several)
    cases marked : ((written writes).drafts.values.filterMap
        (Emissions.mark (written writes).writers)).head? with
    | some entry => exact .mixed single (markedFirst marked) entry.2
    | none => exact .clear single (markedNone marked)

theorem verdictConflict {verdict : Except Error Unit} (found : Verdict writes verdict) :
    (∃ path plugins, verdict = .error (.emitConflict path plugins)) ↔
      ∃ path, Shared writes path ∨ Mixed writes path := by
  cases found with
  | shared first =>
    obtain ⟨_, _, _, holds, _⟩ := first
    exact iff_of_true ⟨_, _, rfl⟩ ⟨_, .inl holds⟩
  | mixed single first plugins =>
    obtain ⟨_, _, _, holds, _⟩ := first
    exact iff_of_true ⟨_, _, rfl⟩ ⟨_, .inr holds⟩
  | clear single apart =>
    refine iff_of_false ?_ ?_
    · intro refused
      obtain ⟨path, plugins, equal⟩ := refused
      cases equal
    · intro either
      rcases either with ⟨path, shared | mixed⟩
      · exact single path shared
      · exact apart path mixed

theorem verdictClear {verdict : Except Error Unit} (found : Verdict writes verdict) :
    verdict = .ok () ↔ ∀ path, ¬Shared writes path ∧ ¬Mixed writes path := by
  cases found with
  | shared first =>
    obtain ⟨_, _, _, holds, _⟩ := first
    exact iff_of_false (fun ok => by cases ok) fun clear => (clear _).1 holds
  | mixed single first plugins =>
    obtain ⟨_, _, _, holds, _⟩ := first
    exact iff_of_false (fun ok => by cases ok) fun clear => (clear _).2 holds
  | clear single apart => exact iff_of_true rfl fun path => ⟨single path, apart path⟩

variable {serializer : Serializer} {symbols : SymbolRegistry} {after : Emissions} {paths : List String}

theorem verdictCompleted
    (completed : (written writes).finalize serializer symbols = (after, .ok paths)) :
    Verdict writes after.validate := by
  obtain ⟨last, finalized, rfl, _⟩ := finalizedRun completed
  have marks := finalized.mixed
  rw [(recordedRun writes).mixed] at marks
  exact verdictFound finalized.writers marks

theorem conflictsFound (completed : (written writes).finalize serializer symbols = (after, .ok paths)) :
    ((∃ path plugins, after.validate = .error (.emitConflict path plugins)) ↔
        ∃ path, Shared writes path ∨ Mixed writes path) ∧
      Verdict writes after.validate ∧ ∀ path, Content writes path := by
  have found := verdictCompleted completed
  exact ⟨verdictConflict found, found, contentRecorded writes⟩

end Finalizing

namespace Sample

def writes : List Write :=
  [.emit ⟨"./a.py", "x = 1\n", "p"⟩, .append ⟨"a.py", "y = 2\n", "q"⟩,
    .append ⟨"a.py", "z = 3\n", "p"⟩, .draft { path := "b.py", fragments := [.text "w = 4"], plugin := "p" }]

def draft : Draft :=
  ⟨"b.py", [.text "w = 4"], "p", none, []⟩

def after : Emissions :=
  { Emissions.placed {} (written writes) draft "w = 4" with drafts := Table.empty }

theorem finalized : (written writes).finalize Serializer.plain {} = (after, .ok ["b.py"]) := by
  have drafts : (written writes).drafts.values = [draft] := rfl
  have merged : Statement.merge [] = [] := by simp [Statement.merge, Table.values, Table.empty]
  have content : Emissions.draftContent Serializer.plain {} draft = .ok "w = 4" := by
    simp only [Emissions.draftContent, draft, Emissions.resolveImports, Except.bind, merged]
    rfl
  refine Emissions.finalizeOk.mpr ⟨Emissions.placed {} (written writes) draft "w = 4", ?_, rfl, rfl⟩
  simp [drafts, Emissions.finalizeDrafts, Emissions.finalizeDraftOk content]

theorem conflicts : after.validate = .error (.emitConflict "a.py" ["p", "q"]) ∧
    (∃ path, Shared writes path ∨ Mixed writes path) ∧ Content writes "./a.py" :=
  ⟨rfl, (conflictsFound finalized).1.mp ⟨"a.py", ["p", "q"], rfl⟩, (conflictsFound finalized).2.2 "./a.py"⟩

end Sample
end Codegen.History
