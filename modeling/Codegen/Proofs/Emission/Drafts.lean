import Codegen.Proofs.Emission.Finalized
import Codegen.Proofs.Import.Block
import Codegen.Proofs.Serializer

/-! What becomes of the drafts of a history. The draft of a path holds the fragments and imports of all
its writes in their order and the header of the first; finalizing turns it into that header, the block
of its imports and a body with the lines of its fragments, if all of them can be written. -/
namespace Codegen

open Text (nonBlankLines)

def ImportRef.statement? (symbols : SymbolRegistry) (path : String) : ImportRef → Option Statement
  | symbol ref => (symbols.resolve ref).bind (·.importFor path)
  | package ref => some ref.statement
  | relative ref => some ref.statement
  | other _ => none

theorem Emissions.importsResolved {symbols : SymbolRegistry} {draft : Draft} {refs : List ImportRef}
    {statements : List Statement} : (resolveImports symbols draft refs).2 = .ok statements ↔
      (∀ value, ImportRef.other value ∉ refs) ∧
        statements = refs.filterMap (ImportRef.statement? symbols draft.path) := by
  induction refs generalizing statements with
  | nil => simp [resolveImports, eq_comm]
  | cons ref rest ih =>
    have longer (s : Statement) : (resolveImports symbols draft rest).2.map (s :: ·) = .ok statements ↔
        (∀ value, ImportRef.other value ∉ rest) ∧
          statements = s :: rest.filterMap (ImportRef.statement? symbols draft.path) := by
      rw [Outcome.mapOk]
      constructor
      · intro mapped
        obtain ⟨others, resolved, rfl⟩ := mapped
        obtain ⟨known, rfl⟩ := ih.mp resolved
        exact ⟨known, rfl⟩
      · intro listed
        obtain ⟨known, rfl⟩ := listed
        exact ⟨_, ih.mpr ⟨known, rfl⟩, rfl⟩
    cases ref with
    | symbol ref =>
      cases found : symbols.resolve ref with
      | none => simp [resolveImports, resolveImport, ImportRef.statement?, found, ih]
      | some s =>
        cases needed : s.importFor draft.path with
        | none => simp [resolveImports, resolveImport, ImportRef.statement?, found, needed, ih]
        | some statement =>
          simp [resolveImports, resolveImport, ImportRef.statement?, found, needed, longer]
    | package ref | relative ref =>
      simp [resolveImports, resolveImport, ImportRef.statement?, longer]
    | other value =>
      refine iff_of_false (fun resolved => by cases resolved) ?_
      intro listed
      obtain ⟨known, _⟩ := listed
      exact known value List.mem_cons_self

namespace History

def draftsOf (writes : List Write) (path : String) : List DraftWrite :=
  (drafts writes).filter (·.target = path)

def fragmentsOf (writes : List Write) (path : String) : List Fragment :=
  (draftsOf writes path).flatMap (·.fragments)

def importsOf (writes : List Write) (path : String) : List ImportRef :=
  (draftsOf writes path).flatMap (·.imports)

def headerOf (writes : List Write) (path : String) : Option String :=
  (draftsOf writes path).head?.bind (·.header)

def statementsOf (symbols : SymbolRegistry) (writes : List Write) (path : String) : List Statement :=
  (importsOf writes path).filterMap (ImportRef.statement? symbols path)

structure Gathered (writes : List Write) (target : String) (draft : Draft) : Prop where
  path : draft.path = target
  fragments : draft.fragments = fragmentsOf writes target
  imports : draft.imports = importsOf writes target
  header : draft.header = headerOf writes target

theorem appliedText {e : Emissions} {w : Write} {t : TextWrite} (text : w.text? = some t) :
    (w.apply e).drafts = e.drafts := by
  cases w with
  | emit t => rfl
  | append t =>
    simp only [Write.apply, Emissions.append]
    split
    · rfl
    · split <;> rfl
  | draft d => cases text

theorem draftsOfText {writes : List Write} {w : Write} {t : TextWrite} (text : w.text? = some t)
    (path : String) : draftsOf (writes ++ [w]) path = draftsOf writes path := by
  unfold draftsOf
  rw [draftsText text]

theorem draftsOfOther {writes : List Write} {d : DraftWrite} {path : String} (other : path ≠ d.target) :
    draftsOf (writes ++ [.draft d]) path = draftsOf writes path := by
  simp [draftsOf, drafts, Write.draft?, other.symm]

theorem draftsOfSnoc (writes : List Write) (d : DraftWrite) :
    draftsOf (writes ++ [.draft d]) d.target = draftsOf writes d.target ++ [d] := by
  simp [draftsOf, drafts, Write.draft?]

theorem draftsOfNone {writes : List Write} {path : String} :
    draftsOf writes path = [] ↔ path ∉ draftPaths writes := by
  simp [draftsOf, draftPaths, List.filter_eq_nil_iff]

theorem draftFresh {e : Emissions} {d : DraftWrite} (fresh : e.drafts.find? d.target = none) :
    ((Write.draft d).apply e).drafts =
      e.drafts.put d.target ⟨d.target, d.fragments, d.plugin, d.header, d.imports⟩ := by
  have absent : e.drafts.find? (Path.normalize d.path) = none := fresh
  simp only [Write.apply, Emissions.emitDraft, absent]
  rfl

theorem draftLonger {e : Emissions} {d : DraftWrite} {old : Draft}
    (held : e.drafts.find? d.target = some old) :
    ((Write.draft d).apply e).drafts =
      e.drafts.put d.target
        { old with
          fragments := old.fragments ++ d.fragments
          plugin := Attribution.add old.plugin d.plugin
          imports := old.imports ++ d.imports } := by
  have found : e.drafts.find? (Path.normalize d.path) = some old := held
  simp only [Write.apply, Emissions.emitDraft, found]
  rfl

theorem gatheredSame {writes later : List Write} {path : String} {draft : Draft}
    (same : draftsOf later path = draftsOf writes path) (gathered : Gathered writes path draft) :
    Gathered later path draft := by
  obtain ⟨place, fragments, imports, header⟩ := gathered
  refine ⟨place, ?_, ?_, ?_⟩
  · unfold fragmentsOf
    rw [same]
    exact fragments
  · unfold importsOf
    rw [same]
    exact imports
  · unfold headerOf
    rw [same]
    exact header

theorem gatheredFirst {writes : List Write} {d : DraftWrite} (fresh : d.target ∉ draftPaths writes) :
    Gathered (writes ++ [.draft d]) d.target
      ⟨d.target, d.fragments, d.plugin, d.header, d.imports⟩ := by
  have none := draftsOfNone.mpr fresh
  refine ⟨rfl, ?_, ?_, ?_⟩
  · simp [fragmentsOf, draftsOfSnoc, none]
  · simp [importsOf, draftsOfSnoc, none]
  · simp [headerOf, draftsOfSnoc, none]

theorem gatheredNext {writes : List Write} {d : DraftWrite} {old : Draft} (plugin : String)
    (known : d.target ∈ draftPaths writes) (gathered : Gathered writes d.target old) :
    Gathered (writes ++ [.draft d]) d.target
      { old with
        fragments := old.fragments ++ d.fragments
        plugin := plugin
        imports := old.imports ++ d.imports } := by
  have some : draftsOf writes d.target ≠ [] := fun none => draftsOfNone.mp none known
  obtain ⟨place, fragments, imports, header⟩ := gathered
  refine ⟨place, ?_, ?_, ?_⟩
  · simp [fragmentsOf, draftsOfSnoc, fragments]
  · simp [importsOf, draftsOfSnoc, imports]
  · simp [headerOf, draftsOfSnoc, header, List.head?_append_of_ne_nil _ some]

theorem gatheredRun (writes : List Write) {path : String} {draft : Draft}
    (found : (written writes).drafts.find? path = some draft) : Gathered writes path draft := by
  induction writes using List.reverseRecOn generalizing path draft with
  | nil => cases found
  | append_singleton writes w ih =>
    rw [writtenSnoc] at found
    have keys := (recordedRun writes).drafts
    cases text : w.text? with
    | some t =>
      rw [appliedText text] at found
      exact gatheredSame (draftsOfText text path) (ih found)
    | none =>
      cases w with
      | emit | append => cases text
      | draft d =>
        by_cases same : path = d.target
        · subst same
          cases held : (written writes).drafts.find? d.target with
          | none =>
            rw [draftFresh held, Table.findPut, if_pos rfl] at found
            cases found
            exact gatheredFirst (keys ▸ Table.findAbsent.mp held)
          | some old =>
            rw [draftLonger held, Table.findPut, if_pos rfl] at found
            cases found
            exact gatheredNext _ (keys ▸ Table.keyFound.mpr ⟨old, held⟩) (ih held)
        · have before : (written writes).drafts.find? path = some draft := by
            cases held : (written writes).drafts.find? d.target with
            | none => rwa [draftFresh held, Table.findPut, if_neg same] at found
            | some old => rwa [draftLonger held, Table.findPut, if_neg same] at found
          exact gatheredSame (draftsOfOther same) (ih before)

structure Writable (symbols : SymbolRegistry) (writes : List Write) (path : String) : Prop where
  references : ∀ value, ImportRef.other value ∉ importsOf writes path
  fragments : ∀ value, Fragment.other value ∉ fragmentsOf writes path
  imports : Statement.Importable (statementsOf symbols writes path)

inductive Composed (symbols : SymbolRegistry) (writes : List Write) (path : String) : String → Prop where
  | parts {block body : String}
      (imports : Statement.render (Statement.merge (statementsOf symbols writes path)) = .ok block)
      (lines : nonBlankLines body = (draftsOf writes path).flatMap
        (fun d => d.fragments.flatMap (fun fragment => nonBlankLines fragment.display))) :
      Composed symbols writes path
        ((headerOf writes path).getD "" ++ block ++ Serializer.gap block body ++ body)

section Content

variable {symbols : SymbolRegistry} {writes : List Write} {path : String} {draft : Draft}

theorem contentParts {content : String} :
    Emissions.draftContent Serializer.standard symbols draft = .ok content ↔
      ∃ statements, (Emissions.resolveImports symbols draft draft.imports).2 = .ok statements ∧
        ∃ block, Statement.render (Statement.merge statements) = .ok block ∧
          ∃ body, Serializer.joinSources draft.fragments = .ok body ∧
            Serializer.assembleModule draft.header block (Source.normalize body) = content := by
  have bound {statements : List Statement} :
      Emissions.draftText Serializer.standard draft (Statement.merge statements) = .ok content ↔
        ∃ block, Statement.render (Statement.merge statements) = .ok block ∧
          ∃ body, Serializer.joinSources draft.fragments = .ok body ∧
            Serializer.assembleModule draft.header block (Source.normalize body) = content := by
    cases merged : Statement.merge statements with
    | nil => simp [Emissions.draftText, Serializer.standard, Statement.renderNone, Outcome.bindOk]
    | cons s rest => simp [Emissions.draftText, Serializer.standard, Outcome.bindOk]
  simp only [← bound]
  exact Outcome.bindOk

theorem contentWritable (gathered : Gathered writes path draft) :
    (∃ content, Emissions.draftContent Serializer.standard symbols draft = .ok content) ↔
      Writable symbols writes path := by
  obtain ⟨rfl, fragments, imports, _⟩ := gathered
  simp only [contentParts, fragments, imports]
  constructor
  · intro written
    obtain ⟨_, _, resolved, _, block, _, body, _⟩ := written
    obtain ⟨known, rfl⟩ := Emissions.importsResolved.mp resolved
    exact ⟨known, Serializer.bodyWritten.mp ⟨_, body⟩, Statement.renderWritten.mp ⟨_, block⟩⟩
  · intro writable
    obtain ⟨known, written, importable⟩ := writable
    obtain ⟨block, rendered⟩ := Statement.renderWritten.mpr importable
    obtain ⟨body, joined⟩ := Serializer.bodyWritten.mpr written
    exact ⟨_, _, Emissions.importsResolved.mpr ⟨known, rfl⟩, block, rendered, body, joined, rfl⟩

theorem contentComposed (gathered : Gathered writes path draft) {content : String}
    (ok : Emissions.draftContent Serializer.standard symbols draft = .ok content) :
    Composed symbols writes path content := by
  obtain ⟨rfl, fragments, imports, header⟩ := gathered
  simp only [contentParts, fragments, imports, header] at ok
  obtain ⟨statements, resolved, block, rendered, body, joined, rfl⟩ := ok
  obtain ⟨_, rfl⟩ := Emissions.importsResolved.mp resolved
  rw [Serializer.assembledParts]
  refine .parts rendered ?_
  rw [Source.nonBlankLinesNormalize, Serializer.bodyLines joined, fragmentsOf, List.flatMap_assoc]

end Content

structure Completed (symbols : SymbolRegistry) (writes : List Write) (after : Emissions)
    (paths : List String) : Prop where
  once : paths.Nodup
  emitted : ∀ path, path ∈ paths ↔ ∃ d ∈ drafts writes, d.target = path
  emptied : after.allDrafts = []
  composed : ∀ path ∈ paths, ∃ content plugin,
    after.files.find? path = some ⟨path, content, plugin⟩ ∧ Composed symbols writes path content

theorem draftFound {writes : List Write} {draft : Draft}
    (member : draft ∈ (written writes).drafts.values) : Gathered writes draft.path draft := by
  obtain ⟨path, found⟩ := Table.valuesMember.mp member
  have gathered := gatheredRun writes found
  exact gathered.path ▸ gathered

theorem draftsFinalized (writes : List Write) (symbols : SymbolRegistry) :
    ((∃ after paths, (written writes).finalize Serializer.standard symbols = (after, .ok paths)) ↔
        ∀ path ∈ draftPaths writes, Writable symbols writes path) ∧
      ∀ after paths, (written writes).finalize Serializer.standard symbols = (after, .ok paths) →
        Completed symbols writes after paths := by
  constructor
  · rw [← draftPathsFiled, List.forall_mem_map, completesRun]
    exact forall₂_congr fun draft inside => contentWritable (draftFound inside)
  · intro after paths completed
    obtain ⟨last, finalized, rfl, rfl⟩ := finalizedRun completed
    refine ⟨Text.firstsDistinct _, ?_, rfl, ?_⟩
    · intro path
      simp only [draftPaths, List.mem_eraseDups, List.mem_map]
    · intro path member
      rw [← draftPathsFiled] at member
      obtain ⟨draft, inside, rfl⟩ := List.mem_map.mp member
      obtain ⟨content, ok, held⟩ := finalized.texts draft inside
      exact ⟨content, draft.plugin, held, contentComposed (draftFound inside) ok⟩

namespace Sample

def pages : List Write :=
  [.draft { path := "./a.py", fragments := [.text "x = 1\n"], plugin := "p", header := some "# a\n" },
    .draft { path := "b.py", fragments := [.text "def f():\n    pass"], plugin := "p" },
    .draft { path := "a.py", fragments := [.text "\ny = 2"], plugin := "q"
             imports := [.package { source := "typing", names := ["Any"] }] }]

theorem pagesWritable : ∀ path ∈ draftPaths pages, Writable {} pages path := by
  have paths : draftPaths pages = ["a.py", "b.py"] := by decide
  rw [paths]
  intro path member
  simp only [List.mem_cons, List.not_mem_nil, or_false] at member
  rcases member with rfl | rfl
  · have refs : importsOf pages "a.py" = [.package { source := "typing", names := ["Any"] }] := rfl
    have fragments : fragmentsOf pages "a.py" = [.text "x = 1\n", .text "\ny = 2"] := rfl
    exact ⟨by simp [refs], by simp [fragments], rfl, rfl⟩
  · have refs : importsOf pages "b.py" = [] := rfl
    have fragments : fragmentsOf pages "b.py" = [.text "def f():\n    pass"] := rfl
    exact ⟨by simp [refs], by simp [fragments], rfl, rfl⟩

theorem pagesFinalized : ∃ after paths,
    (written pages).finalize Serializer.standard {} = (after, .ok paths) ∧
      Completed {} pages after paths := by
  obtain ⟨after, paths, completed⟩ := (draftsFinalized pages {}).1.mpr pagesWritable
  exact ⟨after, paths, completed, (draftsFinalized pages {}).2 after paths completed⟩

/- Imports that nobody can write: a whole module without a name, and a value that is no reference. -/
def unnamed : Draft :=
  ⟨"a.py", [.text "x = 1"], "p", none, [.package { source := "", default := some "d" }]⟩

def foreign : Draft :=
  ⟨"a.py", [.text "x = 1"], "p", none, [.other (.text "bogus")]⟩

def alone (draft : Draft) : List Write :=
  [.draft { path := draft.path, fragments := draft.fragments, plugin := draft.plugin
            imports := draft.imports }]

theorem unnamedContent : Emissions.draftContent Serializer.standard {} unnamed =
    .error .unnamedModule := by
  let s : Statement := { source := "", default := some "d" }
  have merged : Statement.merge [s] = [s] := Statement.mergeOne (by decide)
  have rendered : Statement.render [s] = .error .unnamedModule := by
    have bound : s.imports = .error .unnamedModule := rfl
    rw [Statement.render, Statement.blockOne rfl rfl, bound]
    rfl
  have resolved : (Emissions.resolveImports {} unnamed unnamed.imports).2 = .ok [s] := rfl
  simp only [Emissions.draftContent, resolved, Except.bind, merged]
  exact congrArg (· >>= _) rendered

theorem importsRefused :
    (written (alone unnamed)).finalize Serializer.standard {} =
        (written (alone unnamed), .error .unnamedModule) ∧
      (written (alone foreign)).finalize Serializer.standard {} =
        (written (alone foreign), .error (.unknownImport (.text "bogus"))) ∧
      ∀ draft ∈ [unnamed, foreign], "a.py" ∈ draftPaths (alone draft) ∧
        (written (alone draft)).file? "a.py" = none ∧ (written (alone draft)).allDrafts = [draft] := by
  have bogus : Emissions.draftContent Serializer.standard {} foreign =
      .error (.unknownImport (.text "bogus")) := rfl
  have whole : (written (alone unnamed)).drafts.values = [unnamed] := rfl
  have other : (written (alone foreign)).drafts.values = [foreign] := rfl
  have first := Emissions.finalizeRefused whole unnamedContent
  have second := Emissions.finalizeRefused other bogus
  refine ⟨first, second, ?_⟩
  intro draft member
  simp only [List.mem_cons, List.not_mem_nil, or_false] at member
  rcases member with rfl | rfl
  · exact ⟨by decide, rfl, rfl⟩
  · exact ⟨by decide, rfl, rfl⟩

end Sample

end History
end Codegen
