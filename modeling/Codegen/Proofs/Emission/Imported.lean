import Codegen.Proofs.Emission.Reached
import Codegen.Proofs.Import.Bound

/-! What becomes of a reference to a symbol when its draft is finalized. If no symbol answers it, it is
reported; a symbol of the file itself needs no import; any other is imported from the module of its
file. Statements of one module share one default and one namespace, the first ones, so an import is
lost if another default came first or a namespace takes the place of the module's values. -/
namespace Codegen

open Source (Stmt)

def SymbolRef.missing (ref : SymbolRef) (draft : Draft) : UnresolvedRef :=
  ⟨ref.capability, ref.entity, ref.shape, draft.plugin, draft.path⟩

def ImportRef.missing? (symbols : SymbolRegistry) (draft : Draft) : ImportRef → Option UnresolvedRef
  | symbol ref => if symbols.resolve ref = none then some (ref.missing draft) else none
  | package _ => none
  | relative _ => none
  | other _ => none

def Draft.statements (draft : Draft) (symbols : SymbolRegistry) : List Statement :=
  draft.imports.filterMap (ImportRef.statement? symbols draft.path)

def Draft.importsFrom (draft : Draft) (symbols : SymbolRegistry) (source : String) : Statement :=
  Statement.united (draft.statements symbols) source

def Draft.importNodes (draft : Draft) (symbols : SymbolRegistry) : Except Error (List Stmt) :=
  Statement.block (Statement.merge (draft.statements symbols))

namespace Symbol

variable {s : Symbol} {file source : String}

def importFrom (s : Symbol) (source : String) : Statement :=
  if s.isDefault then { source := source, default := some s.name }
  else if s.isType then { source := source, types := [s.name] }
  else { source := source, named := [s.name] }

theorem importSource : (s.importFrom source).source = source := by
  unfold importFrom
  split
  · rfl
  · split <;> rfl

theorem importForOther (other : Path.normalize s.file ≠ Path.normalize file) :
    s.importFor file = some (s.importFrom (Path.moduleFrom file s.file)) := by
  unfold importFor importFrom
  rw [if_neg other]
  split
  · rfl
  · split <;> rfl

end Symbol

namespace Statement

/-- The import of a symbol is not written: another name of its module came first, or a namespace takes
the place of the module's values. -/
inductive Displaced (s : Statement) (symbol : Symbol) : Prop where
  | whole (whole : symbol.isDefault = true) (other : s.wholeName ≠ some symbol.name)
  | value (part : symbol.isDefault = false) (space : given s.namespaceAlias ≠ none)
      (value : symbol.isType = true → symbol.name ∈ s.named)

inductive Brings (source : String) (symbol : Symbol) (nodes : List Stmt) : Prop where
  | module {node : Stmt} (whole : symbol.isDefault = true) (member : node ∈ nodes)
      (binds : BindsModule source symbol.name node)
  | value {node : Stmt} (part : symbol.isDefault = false) (value : symbol.isType = false)
      (member : node ∈ nodes) (takes : TakesName source symbol.name node)
  | type (part : symbol.isDefault = false) (type : symbol.isType = true)
      (takes : TakesType source symbol.name nodes)

section Block

variable {statements : List Statement} {nodes : List Stmt} {s : Statement} {symbol : Symbol}

theorem unitedListed (member : s ∈ statements) : united statements s.source ∈ merge statements :=
  mergeMember.mpr ⟨List.mem_map.mpr ⟨s, member, rfl⟩, rfl⟩

theorem unitedNamed (member : s ∈ statements) : s.named ⊆ (united statements s.source).named := by
  intro name listed
  exact List.mem_eraseDups.mpr (List.mem_flatMap.mpr ⟨s, by simp [member], listed⟩)

theorem unitedTypes (member : s ∈ statements) : s.types ⊆ (united statements s.source).types := by
  intro name listed
  exact List.mem_eraseDups.mpr (List.mem_flatMap.mpr ⟨s, by simp [member], listed⟩)

theorem blockBrings (ok : block (merge statements) = .ok nodes) {source : String}
    (dot : source.toList.head? = some '.') (member : symbol.importFrom source ∈ statements)
    (kept : ¬Displaced (united statements source) symbol) : Brings source symbol nodes := by
  have same : (symbol.importFrom source).source = source := Symbol.importSource
  have listed := same ▸ unitedListed member
  have named := same ▸ unitedNamed member
  have types := same ▸ unitedTypes member
  cases whole : symbol.isDefault with
  | true =>
    have bound : (united statements source).wholeName = some symbol.name := by
      by_contra other
      exact kept (.whole whole other)
    obtain ⟨node, inside, binds⟩ := blockWhole ok listed (relativeLevel dot) bound
    exact .module whole inside binds
  | false =>
    cases type : symbol.isType with
    | true =>
      have taken : symbol.name ∈ (symbol.importFrom source).types := by
        simp [Symbol.importFrom, whole, type]
      refine .type whole type (blockType ok listed (types taken) fun value => ?_)
      by_contra space
      exact kept (.value whole space fun _ => value)
    | false =>
      have taken : symbol.name ∈ (symbol.importFrom source).named := by
        simp [Symbol.importFrom, whole, type]
      have free : given (united statements source).namespaceAlias = none := by
        by_contra space
        exact kept (.value whole space fun yes => by simp [type] at yes)
      obtain ⟨node, inside, takes⟩ := blockNamed ok listed free (named taken)
      exact .value whole type inside takes

end Block

end Statement

namespace Emissions

section Finalizing

variable {symbols : SymbolRegistry} {draft : Draft} {e after : Emissions} {paths : List String}

theorem missingListed {refs : List ImportRef} (known : ∀ value, ImportRef.other value ∉ refs) :
    (resolveImports symbols draft refs).1 = refs.filterMap (ImportRef.missing? symbols draft) := by
  induction refs with
  | nil => rfl
  | cons ref rest ih =>
    have ih := ih fun value member => known value (List.mem_cons_of_mem _ member)
    cases ref with
    | symbol ref =>
      cases found : symbols.resolve ref with
      | none => simp [resolveImports, resolveImport, ImportRef.missing?, SymbolRef.missing, found, ih]
      | some s =>
        cases needed : s.importFor draft.path <;>
          simp [resolveImports, resolveImport, ImportRef.missing?, found, needed, ih]
    | package ref | relative ref =>
      simp [resolveImports, resolveImport, ImportRef.missing?, List.filterMap_cons, ih]
    | other value => exact absurd List.mem_cons_self (known value)

theorem missingReported {refs : List ImportRef} (known : ∀ value, ImportRef.other value ∉ refs)
    {ref : SymbolRef} (asked : .symbol ref ∈ refs) (unknown : symbols.resolve ref = none) :
    ref.missing draft ∈ (resolveImports symbols draft refs).1 := by
  rw [missingListed known, List.mem_filterMap]
  exact ⟨.symbol ref, asked, by simp [ImportRef.missing?, unknown]⟩

theorem missingUnknown {refs : List ImportRef} (known : ∀ value, ImportRef.other value ∉ refs)
    {ref : SymbolRef} {other : Draft}
    (reported : ref.missing other ∈ (resolveImports symbols draft refs).1) :
    symbols.resolve ref = none := by
  rw [missingListed known, List.mem_filterMap] at reported
  obtain ⟨asked, _, missing⟩ := reported
  cases asked with
  | symbol asked =>
    simp only [ImportRef.missing?, Option.ite_none_right_eq_some, Option.some.injEq] at missing
    obtain ⟨unknown, same⟩ := missing
    simp only [SymbolRef.missing, UnresolvedRef.mk.injEq] at same
    have key : asked.key = ref.key := by
      rw [SymbolRef.key, SymbolRef.key, same.1, same.2.1, same.2.2.1]
    rw [SymbolRegistry.resolve, key] at unknown
    exact unknown
  | package _ | relative _ | other _ => cases missing

def blockText (nodes : List Stmt) : String :=
  Text.join "\n" (nodes.map Stmt.text)

inductive Begun (symbols : SymbolRegistry) (after : Emissions) (draft : Draft) (nodes : List Stmt) : Prop where
  | file {body : String} (written : draft.importNodes symbols = .ok nodes)
      (held : after.files.find? draft.path = some ⟨draft.path, draft.header.getD "" ++
        blockText nodes ++ Serializer.gap (blockText nodes) body ++ body, draft.plugin⟩) :
      Begun symbols after draft nodes

/-- What became of a reference of a draft. The cases exclude each other, as they speak of the symbol that
answers the reference and of its file. -/
structure Answered (symbols : SymbolRegistry) (e after : Emissions) (draft : Draft)
    (ref : SymbolRef) : Prop where
  reported : ∃ reports, after.unresolved = e.unresolved ++ reports ∧
    (ref.missing draft ∈ reports ↔ symbols.resolve ref = none)
  imported : ∃ nodes, Begun symbols after draft nodes ∧
    ∀ symbol source, symbols.resolve ref = some symbol → source = Path.moduleFrom draft.path symbol.file →
      Path.normalize symbol.file ≠ Path.normalize draft.path →
        ¬Statement.Displaced (draft.importsFrom symbols source) symbol →
          Statement.Brings source symbol nodes

theorem referenceReported (reached : Reached e)
    (completed : e.finalize Serializer.standard symbols = (after, .ok paths))
    (member : draft ∈ e.allDrafts) {ref : SymbolRef} (asked : .symbol ref ∈ draft.imports) :
    ∃ reports, after.unresolved = e.unresolved ++ reports ∧
      (ref.missing draft ∈ reports ↔ symbols.resolve ref = none) := by
  obtain ⟨last, ok, rfl, _⟩ := finalizeOk.mp completed
  have turned := turnedAll (filedDistinct (filedReached reached)) ok
  have known (other : Draft) (inside : other ∈ e.drafts.values) (value : Value) :
      ImportRef.other value ∉ other.imports := by
    obtain ⟨content, written, _⟩ := turned.texts other inside
    obtain ⟨statements, resolved, _⟩ := History.contentParts.mp written
    exact (importsResolved.mp resolved).1 value
  refine ⟨_, turned.unresolved, ?_⟩
  rw [List.mem_flatMap]
  constructor
  · intro reported
    obtain ⟨other, inside, listed⟩ := reported
    exact missingUnknown (known other inside) listed
  · intro unknown
    exact ⟨draft, member, missingReported (known draft member) asked unknown⟩

theorem referenceImported (reached : Reached e)
    (completed : e.finalize Serializer.standard symbols = (after, .ok paths))
    (member : draft ∈ e.allDrafts) {ref : SymbolRef} (asked : .symbol ref ∈ draft.imports) :
    ∃ nodes, Begun symbols after draft nodes ∧
      ∀ symbol source, symbols.resolve ref = some symbol → source = Path.moduleFrom draft.path symbol.file →
        Path.normalize symbol.file ≠ Path.normalize draft.path →
          ¬Statement.Displaced (draft.importsFrom symbols source) symbol →
            Statement.Brings source symbol nodes := by
  obtain ⟨last, ok, rfl, _⟩ := finalizeOk.mp completed
  have turned := turnedAll (filedDistinct (filedReached reached)) ok
  obtain ⟨content, written, held⟩ := turned.texts draft member
  obtain ⟨statements, resolved, block, rendered, body, _, rfl⟩ := History.contentParts.mp written
  obtain ⟨_, rfl⟩ := importsResolved.mp resolved
  obtain ⟨nodes, listed, last⟩ := Outcome.bindOk.mp rendered
  cases last
  rw [Serializer.assembledParts] at held
  refine ⟨nodes, .file listed held, ?_⟩
  intro symbol source found module other kept
  have dot : source.toList.head? = some '.' := by
    rw [module]
    exact Path.moduleFromDot draft.path symbol.file
  refine Statement.blockBrings listed dot (List.mem_filterMap.mpr ⟨.symbol ref, asked, ?_⟩) kept
  rw [ImportRef.statement?, found, Option.bind_some, Symbol.importForOther other, module]

theorem referenceAnswered (reached : Reached e)
    (completed : e.finalize Serializer.standard symbols = (after, .ok paths))
    (member : draft ∈ e.allDrafts) {ref : SymbolRef} (asked : .symbol ref ∈ draft.imports) :
    Answered symbols e after draft ref where
  reported := referenceReported reached completed member asked
  imported := referenceImported reached completed member asked

end Finalizing

/- A page refers to a type, to a default of the same module, to its own symbol and to one that nobody
exports. -/
namespace Sample

def registry (symbols : List Symbol) : SymbolRegistry :=
  { symbols := Table.ofList (symbols.map (fun s => (s.key, ⟨s, "p"⟩))) }

def exported : SymbolRegistry :=
  registry
    [{ name := "User", file := "models/user.py", capability := "type:User", isType := true },
      { name := "users", file := "models/user.py", capability := "repo:User", isDefault := true },
      { name := "page", file := "api/page.py", capability := "page" }]

def refs : List SymbolRef :=
  [{ capability := "type", entity := "User" }, { capability := "repo:User" }, { capability := "page" },
    { capability := "gone" }]

def page : Draft :=
  ⟨"api/page.py", [.text "page = users"], "p", none, refs.map .symbol⟩

def buffer (draft : Draft) : Emissions :=
  (Write.draft { path := draft.path, fragments := draft.fragments, plugin := draft.plugin
                 imports := draft.imports }).apply {}

theorem pageAnswered : ∃ after,
    (buffer page).finalize Serializer.standard exported = (after, .ok ["api/page.py"]) ∧
      ∀ ref ∈ refs, Answered exported (buffer page) after page ref := by
  have ok : ((buffer page).finalize Serializer.standard exported).2.toOption = some ["api/page.py"] := by
    decide +kernel
  have completed := finalizeCompleted ok
  refine ⟨_, completed, fun ref member => ?_⟩
  exact referenceAnswered (.write .empty _) completed List.mem_cons_self (List.mem_map.mpr ⟨ref, member, rfl⟩)

/- Two defaults of one module, a namespace beside a value, an import that cannot be written, and a file
that imports its own symbol by its module. -/
def first : Symbol :=
  { name := "a", file := "m.py", capability := "first", isDefault := true }

def second : Symbol :=
  { name := "b", file := "m.py", capability := "second", isDefault := true }

def value : Symbol :=
  { name := "v", file := "m.py", capability := "value" }

def own : Symbol :=
  { name := "o", file := "a.py", capability := "own" }

def known : SymbolRegistry :=
  registry [first, second, value, own]

def file (imports : List ImportRef) : Draft :=
  ⟨"a.py", [.text "x = 1"], "p", none, imports⟩

def defaults : List ImportRef :=
  [.symbol { capability := "first" }, .symbol { capability := "second" }]

def spaced : List ImportRef :=
  [.symbol { capability := "value" }, .relative { source := ".m", namespaceAlias := some "n" }]

def unwritable : List ImportRef :=
  [.symbol { capability := "value" }, .package { source := "", default := some "d" }]

def itself : List ImportRef :=
  [.symbol { capability := "own" }, .relative { source := ".a", names := ["o"] }]

structure Finished (imports : List ImportRef) (nodes : List Stmt) (text : String) : Prop where
  completed : ∃ after, (buffer (file imports)).finalize Serializer.standard known = (after, .ok ["a.py"]) ∧
    after.unresolved = [] ∧ after.files.find? "a.py" = some ⟨"a.py", text, "p"⟩
  written : (file imports).importNodes known = .ok nodes

theorem finished {imports : List ImportRef} {nodes : List Stmt} {text : String} (s : Statement)
    (completed : ((buffer (file imports)).finalize Serializer.standard known).2.toOption = some ["a.py"])
    (silent : ((buffer (file imports)).finalize Serializer.standard known).1.unresolved = [])
    (held : ((buffer (file imports)).finalize Serializer.standard known).1.files.find? "a.py" =
      some ⟨"a.py", text, "p"⟩)
    (merged : (((file imports).statements known).foldl Statement.gather Table.empty).values = [s])
    (present : s.isEmpty = false) (plain : s.typeOnly = []) (written : s.imports = .ok nodes) :
    Finished imports nodes text := by
  refine ⟨⟨_, finalizeCompleted completed, silent, held⟩, ?_⟩
  rw [Draft.importNodes, Statement.mergeOne merged, Statement.blockOne present plain, written]

theorem defaultsFinished : Finished defaults [.importFrom 1 none [⟨"m", some "a"⟩]]
    "from . import m as a\n\n\nx = 1\n" :=
  finished { source := ".m", default := some "a" } (by decide +kernel) (by decide +kernel)
    (by decide +kernel) (by decide +kernel) rfl rfl rfl

theorem spacedFinished : Finished spaced [.importFrom 1 none [⟨"m", some "n"⟩]]
    "from . import m as n\n\n\nx = 1\n" :=
  finished { source := ".m", named := ["v"], namespaceAlias := some "n" } (by decide +kernel)
    (by decide +kernel) (by decide +kernel) (by decide +kernel) rfl rfl rfl

theorem itselfFinished : Finished itself [Statement.importNames ".a" ["o"]]
    "from .a import o\n\n\nx = 1\n" :=
  finished { source := ".a", named := ["o"] } (by decide +kernel) (by decide +kernel)
    (by decide +kernel) (by decide +kernel) rfl rfl rfl

structure Lost (imports : List ImportRef) (s : Symbol) (nodes : List Stmt) : Prop where
  asked : .symbol { capability := s.capability } ∈ imports
  answered : known.resolve { capability := s.capability } = some s
  other : Path.normalize s.file ≠ Path.normalize "a.py"
  lost : ¬Statement.Brings (Path.moduleFrom "a.py" s.file) s nodes

theorem aliasBrings {source leaf bound : String} {s : Symbol}
    (brings : Statement.Brings source s [.importFrom 1 none [⟨leaf, some bound⟩]]) :
    s.isDefault = true ∧ bound = s.name := by
  have takes {name : String} {node : Stmt} (member : node ∈ [Stmt.importFrom 1 none [⟨leaf, some bound⟩]]) :
      ¬Statement.TakesName source name node := by
    intro takes
    rw [List.mem_singleton.mp member] at takes
    cases takes with
    | taken _ listed => simp at listed
  cases brings with
  | module whole member binds =>
    rw [List.mem_singleton.mp member] at binds
    cases binds with
    | child _ _ bound => exact ⟨whole, bound⟩
  | value _ _ member taken => exact absurd taken (takes member)
  | type _ _ type =>
    cases type with
    | plain member taken => exact absurd taken (takes member)
    | guarded member _ _ => simp at member

theorem secondLost : Lost defaults second [.importFrom 1 none [⟨"m", some "a"⟩]] := by
  refine ⟨by simp [defaults, second], by decide +kernel, by decide, fun brings => ?_⟩
  exact absurd (aliasBrings brings).2 (by decide)

theorem valueLost : Lost spaced value [.importFrom 1 none [⟨"m", some "n"⟩]] := by
  refine ⟨by simp [spaced, value], by decide +kernel, by decide, fun brings => ?_⟩
  exact absurd (aliasBrings brings).1 (by decide)

theorem ownBrought : Statement.Brings (Path.moduleFrom "a.py" own.file) own
    [Statement.importNames ".a" ["o"]] := by
  have source : Path.moduleFrom "a.py" own.file = ".a" := by decide +kernel
  rw [source]
  exact .value rfl rfl List.mem_cons_self (Statement.namesTaken List.mem_cons_self)

theorem unwritableRefused : ∃ after cause,
    (buffer (file unwritable)).finalize Serializer.standard known = (after, .error cause) ∧
      after.files.find? "a.py" = none := by
  cases content : draftContent Serializer.standard known (file unwritable) with
  | error cause => exact ⟨_, cause, finalizeRefused rfl content, rfl⟩
  | ok text =>
    obtain ⟨statements, resolved, block, rendered, _⟩ := History.contentParts.mp content
    obtain ⟨_, rfl⟩ := importsResolved.mp resolved
    have importable := (Statement.renderWritten.mp ⟨block, rendered⟩).1
    exact absurd importable (by decide +kernel)

theorem importsLost :
    (Finished defaults [.importFrom 1 none [⟨"m", some "a"⟩]] "from . import m as a\n\n\nx = 1\n" ∧
      Lost defaults second [.importFrom 1 none [⟨"m", some "a"⟩]]) ∧
    (Finished spaced [.importFrom 1 none [⟨"m", some "n"⟩]] "from . import m as n\n\n\nx = 1\n" ∧
      Lost spaced value [.importFrom 1 none [⟨"m", some "n"⟩]]) ∧
    (.symbol { capability := "value" } ∈ unwritable ∧
      known.resolve { capability := "value" } = some value ∧
      ∃ after cause,
        (buffer (file unwritable)).finalize Serializer.standard known = (after, .error cause) ∧
          after.files.find? "a.py" = none) ∧
    (Finished itself [Statement.importNames ".a" ["o"]] "from .a import o\n\n\nx = 1\n" ∧
      .symbol { capability := "own" } ∈ itself ∧ known.resolve { capability := "own" } = some own ∧
      own.file = "a.py" ∧
      Statement.Brings (Path.moduleFrom "a.py" own.file) own [Statement.importNames ".a" ["o"]]) := by
  refine ⟨⟨defaultsFinished, secondLost⟩, ⟨spacedFinished, valueLost⟩, ?_, itselfFinished, ?_⟩
  · exact ⟨by simp [unwritable], by decide +kernel, unwritableRefused⟩
  · exact ⟨by simp [itself], by decide +kernel, rfl, ownBrought⟩

end Sample
end Emissions
end Codegen
