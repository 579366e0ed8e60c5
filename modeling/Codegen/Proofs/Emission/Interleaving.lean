import Codegen.Proofs.Emission.Cells
import Codegen.Proofs.Emission.Conflict
import Codegen.Proofs.Symbol.Registration

/-! Files that builders deliver in different orders. As long as the order is kept among those of one path,
the symbols they export and what the buffer holds for each path are the same, and so are the finalized
texts, the unresolved references and the verdict on conflicts. Where finalizing fails it fails in every
order, but which files are finalized before it fails depends on the order. -/
namespace Codegen

structure Interleaved {α : Type} (target : α → String) (first second : List α) : Prop where
  same : first.Perm second
  order : ∀ path, first.filter (target · = path) = second.filter (target · = path)

theorem interleavedSwap {α : Type} {target : α → String} {a b : α} (apart : target a ≠ target b)
    (before after : List α) :
    Interleaved target (before ++ a :: b :: after) (before ++ b :: a :: after) := by
  refine ⟨(List.Perm.swap b a after).append_left before, fun path => ?_⟩
  by_cases here : target a = path
  · have other : target b ≠ path := fun there => apart (here.trans there.symm)
    simp [List.filter_append, List.filter_cons, other]
  · simp [List.filter_append, List.filter_cons, here]

structure Delivery where
  builder : Builder
  append : Bool := false

namespace Delivery

def target (d : Delivery) : String :=
  Path.normalize d.builder.path

def run (d : Delivery) (space : Workspace) : Workspace × Except Error Unit :=
  (d.builder.emit d.append space).2

def runAll : List Delivery → Workspace → Workspace × Except Error Unit
  | [], space => (space, .ok ())
  | d :: rest, space =>
    match d.run space with
    | (space, .ok ()) => runAll rest space
    | failed => failed

def registrations (d : Delivery) : List Registration :=
  d.builder.exports.map (Builder.registration d.builder.path d.builder.plugin)

def write (d : Delivery) : Write :=
  match d.builder.raw with
  | some raw =>
    let text : TextWrite := ⟨d.builder.path, d.builder.headerText.getD "" ++ raw, d.builder.plugin⟩
    if d.append then .append text else .emit text
  | none =>
    .draft
      { path := d.builder.path, fragments := d.builder.fragments, plugin := d.builder.plugin
        header := d.builder.headerText, imports := d.builder.imports }

structure Ready (d : Delivery) : Prop where
  fresh : d.builder.emitted = false
  plain : d.builder.raw.isSome = true → d.builder.imports = []

theorem writeTarget (d : Delivery) : d.write.target = d.target := by
  unfold write
  split
  · dsimp only
    split <;> rfl
  · rfl

theorem writeApplied (d : Delivery) (e : Emissions) :
    d.builder.deliver d.append e = d.write.apply e := by
  unfold Builder.deliver write
  cases d.builder.raw with
  | none => rfl
  | some raw => cases d.append <;> rfl

theorem runOk {d : Delivery} {space next : Workspace} : d.run space = (next, .ok ()) ↔
    d.Ready ∧ ∃ symbols, Builder.registerExports d.builder.path d.builder.plugin d.builder.exports
      space.symbols = (symbols, .ok ()) ∧ next = ⟨symbols, d.write.apply space.emissions⟩ := by
  have checked : d.Ready ↔ ¬d.builder.emitted ∧ ¬(d.builder.raw.isSome ∧ ¬d.builder.imports.isEmpty) := by
    constructor
    · intro ready
      obtain ⟨fresh, plain⟩ := ready
      simp only [fresh, Bool.false_eq_true, not_false_eq_true, true_and, not_and, not_not,
        List.isEmpty_iff]
      exact plain
    · intro passed
      simp only [not_and, not_not, List.isEmpty_iff] at passed
      exact ⟨by simpa using passed.1, passed.2⟩
  rw [checked]
  unfold run Builder.emit
  split
  · rename_i emitted
    simp [emitted]
  · rename_i fresh
    split
    · rename_i refused
      exact iff_of_false (fun ok => by cases ok) fun passed => passed.1.2 refused
    · rename_i plain
      simp only [fresh, plain, not_false_eq_true]
      split
      · rename_i symbols cause failed
        simp [failed]
      · rename_i symbols registered
        simp [registered, writeApplied, eq_comm]

structure Delivered (deliveries : List Delivery) (space : Workspace) : Prop where
  ready : ∀ d ∈ deliveries, d.Ready
  symbols : space.symbols.Holds (deliveries.flatMap registrations)
  emissions : space.emissions = History.written (deliveries.map write)

theorem deliveredStep {before : List Delivery} {d : Delivery} {space next : Workspace}
    (delivered : Delivered before space) (ok : d.run space = (next, .ok ())) :
    Delivered (before ++ [d]) next := by
  obtain ⟨ready, symbols, registered, rfl⟩ := runOk.mp ok
  obtain ⟨earlier, holds, emissions⟩ := delivered
  refine ⟨?_, ?_, ?_⟩
  · intro other member
    rcases List.mem_append.mp member with old | new
    · exact earlier other old
    · exact List.mem_singleton.mp new ▸ ready
  · rw [List.flatMap_append, List.flatMap_singleton]
    exact Builder.exportsHold holds registered
  · rw [List.map_append, List.map_singleton, History.writtenSnoc, ← emissions]

theorem deliveredRun {before deliveries : List Delivery} {space next : Workspace}
    (delivered : Delivered before space) (ok : runAll deliveries space = (next, .ok ())) :
    Delivered (before ++ deliveries) next := by
  induction deliveries generalizing before space with
  | nil =>
    cases ok
    simpa using delivered
  | cons d rest ih =>
    simp only [runAll] at ok
    split at ok
    · rename_i middle first
      have later := ih (deliveredStep delivered first) ok
      rwa [List.append_assoc, List.singleton_append] at later
    · rename_i failed other
      exact absurd ok (other _)

theorem runsAll {before deliveries : List Delivery} {space : Workspace}
    (delivered : Delivered before space) (ready : ∀ d ∈ deliveries, d.Ready)
    (agree : Agree ((before ++ deliveries).flatMap registrations)) :
    ∃ next, runAll deliveries space = (next, .ok ()) := by
  induction deliveries generalizing before space with
  | nil => exact ⟨space, rfl⟩
  | cons d rest ih =>
    rw [List.append_cons] at agree
    have parted : ((before ++ [d]) ++ rest).flatMap registrations =
        (before.flatMap registrations ++ d.registrations) ++ rest.flatMap registrations := by simp
    obtain ⟨symbols, registered⟩ := Builder.exportsAccepted delivered.symbols
      (agreeFewer (parted ▸ List.subset_append_left ..) agree)
    have first := runOk.mpr ⟨ready d List.mem_cons_self, symbols, registered, rfl⟩
    obtain ⟨next, ok⟩ := ih (deliveredStep delivered first)
      (fun other member => ready other (List.mem_cons_of_mem _ member)) agree
    exact ⟨next, by simp only [runAll, first, ok]⟩

theorem deliveredNone : Delivered [] {} :=
  ⟨fun d member => (by cases member), SymbolRegistry.holdsNone, rfl⟩

end Delivery

namespace Emissions

variable {symbols others : SymbolRegistry}

theorem resolvesSame (same : ∀ ref, symbols.resolve ref = others.resolve ref) (draft : Draft)
    (refs : List ImportRef) : resolveImports symbols draft refs = resolveImports others draft refs := by
  induction refs with
  | nil => rfl
  | cons ref rest ih =>
    have head : resolveImport symbols draft ref = resolveImport others draft ref := by
      cases ref <;> simp [resolveImport, same]
    simp only [resolveImports, head, ih]

theorem draftContentSame (same : ∀ ref, symbols.resolve ref = others.resolve ref) (serializer : Serializer) :
    draftContent serializer symbols = draftContent serializer others := by
  funext draft
  simp only [draftContent, resolvesSame same]

structure Same (e f : Emissions) : Prop where
  files : ∀ path, e.files.find? path = f.files.find? path
  unresolved : e.unresolved.Perm f.unresolved
  valid : e.validate = .ok () ↔ f.validate = .ok ()

end Emissions

namespace History

theorem unresolvedWritten (writes : List Write) : (written writes).unresolved = [] := by
  induction writes using List.reverseRecOn with
  | nil => rfl
  | append_singleton writes w ih =>
    rw [writtenSnoc, ← ih]
    cases w with
    | emit t => rfl
    | append t =>
      simp only [Write.apply, Emissions.append]
      split
      · rfl
      · split <;> rfl
    | draft d => rfl

section Same

variable {first second : List Write} (interleaved : Interleaved Write.target first second)

include interleaved

theorem cellSame (path : String) : (written first).cell path = (written second).cell path := by
  rw [cellWritten, cellWritten, interleaved.order]

theorem draftsSame : (written first).drafts.values.Perm (written second).drafts.values :=
  (Table.entriesSame fun path => congrArg Cell.draft (cellSame interleaved path)).map Prod.snd

theorem conflictsSame (path : String) :
    (Shared first path ↔ Shared second path) ∧ (Mixed first path ↔ Mixed second path) := by
  have text (t : TextWrite) : t ∈ texts first ↔ t ∈ texts second :=
    (interleaved.same.filterMap Write.text?).mem_iff
  have draft (d : DraftWrite) : d ∈ drafts first ↔ d ∈ drafts second :=
    (interleaved.same.filterMap Write.draft?).mem_iff
  simp only [Shared, Mixed, text, draft, and_self]

variable {serializer : Serializer} {symbols others : SymbolRegistry}
  (same : ∀ ref, symbols.resolve ref = others.resolve ref)

include same

theorem completesSame :
    (∃ after paths, (written first).finalize serializer symbols = (after, .ok paths)) ↔
      ∃ after paths, (written second).finalize serializer others = (after, .ok paths) := by
  rw [completesRun, completesRun, Emissions.draftContentSame same]
  exact forall_congr' fun draft => imp_congr_left (draftsSame interleaved).mem_iff

theorem finalizedSame {after later : Emissions} {paths files : List String}
    (completed : (written first).finalize serializer symbols = (after, .ok paths))
    (ended : (written second).finalize serializer others = (later, .ok files)) :
    Emissions.Same after later := by
  have verdict := verdictCompleted completed
  have verdict' := verdictCompleted ended
  obtain ⟨last, finalized, rfl, _⟩ := finalizedRun completed
  obtain ⟨last', finalized', rfl, _⟩ := finalizedRun ended
  refine ⟨fun path => ?_, ?_, ?_⟩
  · by_cases drafted : path ∈ (written first).drafts.values.map Draft.path
    · obtain ⟨draft, member, rfl⟩ := List.mem_map.mp drafted
      obtain ⟨content, ok, held⟩ := finalized.texts draft member
      obtain ⟨content', ok', held'⟩ := finalized'.texts draft ((draftsSame interleaved).mem_iff.mp member)
      rw [Emissions.draftContentSame same, ok'] at ok
      cases ok
      exact held.trans held'.symm
    · have drafted' : path ∉ (written second).drafts.values.map Draft.path := by
        rwa [← ((draftsSame interleaved).map Draft.path).mem_iff]
      have text := congrArg Cell.file (cellSame interleaved path)
      exact (finalized.others path drafted).trans (text.trans (finalized'.others path drafted').symm)
  · have reports := (draftsSame interleaved).flatMap_right
      (fun draft => (Emissions.resolveImports others draft draft.imports).1)
    have left := finalized.unresolved
    have right := finalized'.unresolved
    simp only [unresolvedWritten, Emissions.resolvesSame same, List.nil_append] at left right
    rw [left, right]
    exact reports
  · rw [verdictClear verdict, verdictClear verdict']
    exact forall_congr' fun path => by rw [(conflictsSame interleaved path).1, (conflictsSame interleaved path).2]

end Same
end History

namespace Delivery

structure Alike (serializer : Serializer) (space other : Workspace) : Prop where
  completes : (∃ after paths, space.emissions.finalize serializer space.symbols = (after, .ok paths)) ↔
    ∃ after paths, other.emissions.finalize serializer other.symbols = (after, .ok paths)
  same : ∀ after paths later files,
    space.emissions.finalize serializer space.symbols = (after, .ok paths) →
      other.emissions.finalize serializer other.symbols = (later, .ok files) →
        Emissions.Same after later

section Interleaved

variable {first second : List Delivery} {space other : Workspace}

theorem interleavedWrites (interleaved : Interleaved target first second) :
    Interleaved Write.target (first.map write) (second.map write) := by
  refine ⟨interleaved.same.map write, fun path => ?_⟩
  simp only [List.filter_map, Function.comp_def, writeTarget, interleaved.order path]

theorem interleavedSymbols (interleaved : Interleaved target first second) (delivered : Delivered first space)
    (also : Delivered second other) (ref : SymbolRef) :
    space.symbols.resolve ref = other.symbols.resolve ref := by
  have same := interleaved.same.flatMap_right registrations
  have found : space.symbols.symbols.find? ref.key = other.symbols.symbols.find? ref.key := by
    refine Option.ext fun r => ?_
    rw [delivered.symbols, also.symbols, same.mem_iff]
  simp only [SymbolRegistry.resolve, found]

theorem interleavedAlike (interleaved : Interleaved target first second)
    (completed : runAll first {} = (space, .ok ())) :
    ∃ other, runAll second {} = (other, .ok ()) ∧ ∀ serializer, Alike serializer space other := by
  have delivered := deliveredRun deliveredNone completed
  have ready (d : Delivery) (member : d ∈ second) : d.Ready :=
    delivered.ready d (interleaved.same.mem_iff.mpr member)
  have agree : Agree (([] ++ second).flatMap registrations) :=
    agreeFewer (interleaved.same.flatMap_right registrations).symm.subset
      (SymbolRegistry.holdsAgree delivered.symbols)
  obtain ⟨other, ran⟩ := runsAll deliveredNone ready agree
  have also := deliveredRun deliveredNone ran
  have writes := interleavedWrites interleaved
  have symbols := interleavedSymbols interleaved delivered also
  refine ⟨other, ran, fun serializer => ⟨?_, ?_⟩⟩
  · rw [delivered.emissions, also.emissions]
    exact History.completesSame writes symbols
  · intro after paths later files
    rw [delivered.emissions, also.emissions]
    exact History.finalizedSame writes symbols

end Interleaved

namespace Sample

def models : Delivery :=
  { builder :=
      { path := "a.py", plugin := "p", fragments := [.text "class A:\n    pass"]
        exports := [{ name := "A", capability := "type:A" }] } }

def queries : Delivery :=
  { builder :=
      { path := "./b.py", plugin := "q", fragments := [.text "x = A"]
        imports := [.symbol { capability := "type", entity := "A" }] } }

theorem queriesFirst : ∃ space other, runAll [models, queries] {} = (space, .ok ()) ∧
    runAll [queries, models] {} = (other, .ok ()) ∧ ∀ serializer, Alike serializer space other := by
  have completed : runAll [models, queries] {} = ((runAll [models, queries] {}).1, .ok ()) := rfl
  have swapped : Interleaved target [models, queries] [queries, models] :=
    interleavedSwap (by decide) [] []
  obtain ⟨other, ran, alike⟩ := interleavedAlike swapped completed
  exact ⟨_, other, completed, ran, alike⟩

/- Finalizing stops at the fragment that nobody can write, before or after the other file. -/
def foreign : Delivery :=
  { builder := { path := "b.py", plugin := "q", fragments := [.other (.int 3)] } }

def left (deliveries : List Delivery) : Emissions × Except Error (List String) :=
  let space := (runAll deliveries {}).1
  space.emissions.finalize Serializer.standard space.symbols

theorem failureOrdered : Interleaved target [models, foreign] [foreign, models] ∧
    (runAll [models, foreign] {}).2 = .ok () ∧ (runAll [foreign, models] {}).2 = .ok () ∧
    (left [models, foreign]).2.toOption = none ∧ (left [foreign, models]).2.toOption = none ∧
    (left [models, foreign]).1.files.find? "a.py" = some ⟨"a.py", "class A:\n    pass\n", "p"⟩ ∧
    (left [foreign, models]).1.files.find? "a.py" = none :=
  ⟨interleavedSwap (by decide) [] [], rfl, rfl, by decide +kernel, by decide +kernel, by decide +kernel,
    by decide +kernel⟩

end Sample
end Delivery
end Codegen
