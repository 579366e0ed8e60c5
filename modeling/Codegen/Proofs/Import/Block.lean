import Codegen.Import.Block
import Codegen.Proofs.Import.Merge
import Codegen.Proofs.Outcome

/-! The nodes of an import block by the statements that they come from, and when a block can be written.
The only imports that cannot are those that bind a whole module which has no name; sorting and guarding
lose no statement and add none of that kind. -/
namespace Codegen.Statement

open Source (Stmt)

def Unnamed (s : Statement) : Prop :=
  s.source = "" ∧ (given s.namespaceAlias ≠ none ∨ given s.default ≠ none)

def Importable (statements : List Statement) : Prop :=
  let own := statements.filter (·.source = "")
  given (own.findSome? (·.default)) = none ∧ given (own.findSome? (·.namespaceAlias)) = none

theorem splitUnnamed {source : String} : splitSource source = (0, none) ↔ source = "" := by
  constructor
  · intro split
    simp only [splitSource, Prod.mk.injEq] at split
    obtain ⟨dots, module⟩ := split
    have empty : Text.dropLeading '.' source = "" := by
      by_contra some
      simp [some] at module
    rw [empty] at dots
    have none : source.length = 0 := by simpa using dots
    simpa using none
  · intro empty
    subst empty
    rfl

theorem moduleBound {source bound : String} :
    (∃ node, bindModule source bound = .ok node) ↔ source ≠ "" := by
  rw [Ne, ← splitUnnamed]
  unfold bindModule
  split <;> simp_all

def valueNodes (s : Statement) : List Stmt :=
  if s.named.isEmpty then [] else [importNames s.source s.named]

inductive Imported (s : Statement) : List Stmt → Prop where
  | spaced {bound : String} {node : Stmt} (space : given s.namespaceAlias = some bound)
      (binds : bindModule s.source bound = .ok node) : Imported s [node]
  | whole {bound : String} {node : Stmt} (space : given s.namespaceAlias = none)
      (default : given s.default = some bound) (binds : bindModule s.source bound = .ok node) :
      Imported s (node :: s.valueNodes)
  | named (space : given s.namespaceAlias = none) (default : given s.default = none) :
      Imported s s.valueNodes

theorem importsImported {s : Statement} {nodes : List Stmt} (ok : s.imports = .ok nodes) :
    s.Imported nodes := by
  cases space : given s.namespaceAlias with
  | some bound =>
    simp only [imports, space] at ok
    obtain ⟨node, binds, last⟩ := Outcome.bindOk.mp ok
    cases last
    exact .spaced space binds
  | none =>
    cases default : given s.default with
    | some bound =>
      simp only [imports, space, default] at ok
      obtain ⟨whole, mapped, last⟩ := Outcome.bindOk.mp ok
      obtain ⟨node, binds, rfl⟩ := Outcome.mapOk.mp mapped
      cases last
      exact .whole space default binds
    | none =>
      simp only [imports, space, default] at ok
      obtain ⟨whole, none, last⟩ := Outcome.bindOk.mp ok
      cases none
      cases last
      exact .named space default

theorem importsWritten {s : Statement} : (∃ nodes, s.imports = .ok nodes) ↔ ¬s.Unnamed := by
  have bound (name : String) : (∃ node, bindModule s.source name = .ok node) ↔ s.source ≠ "" :=
    moduleBound
  unfold imports Unnamed
  cases space : given s.namespaceAlias with
  | some name => simp [Outcome.bindSucceeds, bound]
  | none =>
    cases whole : given s.default with
    | some name => simp [Outcome.bindSucceeds, Outcome.mapOk, bound]
    | none => simp [Outcome.bindSucceeds]

theorem requireUnnamed {s : Statement} : (requireGuard s).Unnamed ↔ s.Unnamed := by
  unfold requireGuard
  split <;> rfl

theorem guardPlaced (statements : List Statement) :
    ((∀ s ∈ statements, s.source ≠ guardModule) ∧
      withGuard statements = statements ++ [requireGuard { source := guardModule }]) ∨
    ∃ before s after, statements = before ++ s :: after ∧ s.source = guardModule ∧
      withGuard statements = before ++ requireGuard s :: after := by
  induction statements with
  | nil => exact .inl ⟨by simp, rfl⟩
  | cons first rest ih =>
    rw [withGuard]
    split
    · rename_i typing
      exact .inr ⟨[], first, rest, rfl, typing, rfl⟩
    · rename_i other
      rcases ih with ⟨none, added⟩ | ⟨before, s, after, rfl, typing, replaced⟩
      · exact .inl ⟨List.forall_mem_cons.mpr ⟨other, none⟩, by rw [added]; rfl⟩
      · exact .inr ⟨first :: before, s, after, rfl, typing, by rw [replaced]; rfl⟩

theorem guardUnnamed {statements : List Statement} :
    (∀ s ∈ withGuard statements, ¬s.Unnamed) ↔ ∀ s ∈ statements, ¬s.Unnamed := by
  rcases guardPlaced statements with ⟨_, added⟩ | ⟨before, s, after, rfl, _, replaced⟩
  · have named : ¬(requireGuard { source := guardModule }).Unnamed := by
      rw [requireUnnamed]
      intro unnamed
      obtain ⟨empty, _⟩ := unnamed
      exact absurd empty (by decide)
    rw [added, List.forall_mem_append]
    simp [named]
  · rw [replaced]
    simp only [List.forall_mem_append, List.forall_mem_cons, requireUnnamed]

theorem arrangeMember {statements : List Statement} {s : Statement} :
    s ∈ arrange statements ↔ s ∈ statements := by
  simp only [arrange, sortBySource, List.mem_append, List.mem_mergeSort, List.mem_filter,
    decide_eq_true_eq]
  constructor
  · intro listed
    rcases listed with (⟨member, _⟩ | ⟨member, _⟩) | ⟨member, _⟩ <;> exact member
  · intro member
    by_cases future : s.source = futureModule
    · exact .inl (.inl ⟨member, future⟩)
    · by_cases relative : s.isRelative
      · exact .inr ⟨member, relative⟩
      · exact .inl (.inr ⟨member, future, relative⟩)

def present (statements : List Statement) : List Statement :=
  statements.filter (fun s => !s.isEmpty)

theorem presentMember {statements : List Statement} {s : Statement} :
    s ∈ present statements ↔ s ∈ statements ∧ s.isEmpty = false := by
  simp [present]

theorem guardedMember {statements : List Statement} {t : Statement} :
    t ∈ guarded (present statements) ↔
    ∃ s ∈ statements, s.typeOnly ≠ [] ∧ t = { source := s.source, named := s.typeOnly } := by
  simp only [guarded, present, List.mem_map, List.mem_filter, decide_eq_true_eq]
  constructor
  · rintro ⟨s, ⟨⟨member, _⟩, some⟩, rfl⟩
    exact ⟨s, member, some, rfl⟩
  · rintro ⟨s, member, some, rfl⟩
    have held : s.types ≠ [] := by
      intro none
      simp [typeOnly, none] at some
    exact ⟨s, ⟨⟨member, by simp [isEmpty, held]⟩, some⟩, rfl⟩

def shown (statements : List Statement) : List Statement :=
  if (guarded (present statements)).isEmpty then present statements else withGuard (present statements)

structure Blocked (statements : List Statement) (nodes : List Stmt) (values types : List (List Stmt)) :
    Prop where
  plain : List.Forall₂ (fun s part => s.imports = .ok part) (arrange (shown statements)) values
  hidden : List.Forall₂ (fun s part => s.imports = .ok part)
    (sortBySource (guarded (present statements))) types
  whole : nodes = values.flatten ++ if (guarded (present statements)).isEmpty then [] else
    [.branch (.name guardName) types.flatten []]

theorem blockBlocked {statements : List Statement} {nodes : List Stmt} :
    block statements = .ok nodes ↔ ∃ values types, Blocked statements nodes values types := by
  have parts : block statements = ((arrange (shown statements)).mapM imports >>= fun values =>
      if (guarded (present statements)).isEmpty then .ok values.flatten
      else (sortBySource (guarded (present statements))).mapM imports >>= fun types =>
        .ok (values.flatten ++ [.branch (.name guardName) types.flatten []])) := rfl
  rw [parts, Outcome.bindOk]
  by_cases none : (guarded (present statements)).isEmpty
  · have empty : guarded (present statements) = [] := List.isEmpty_iff.mp none
    simp only [if_pos none]
    constructor
    · rintro ⟨values, plain, last⟩
      cases last
      exact ⟨values, [], Outcome.eachOk.mp plain, by simp [empty, sortBySource], by simp [empty]⟩
    · rintro ⟨values, types, plain, _, rfl⟩
      exact ⟨values, Outcome.eachOk.mpr plain, by simp [empty]⟩
  · simp only [if_neg none, Outcome.bindOk]
    constructor
    · rintro ⟨values, plain, types, hidden, last⟩
      cases last
      exact ⟨values, types, Outcome.eachOk.mp plain, Outcome.eachOk.mp hidden, by rw [if_neg none]⟩
    · rintro ⟨values, types, plain, hidden, rfl⟩
      exact ⟨values, Outcome.eachOk.mpr plain, types, Outcome.eachOk.mpr hidden, by rw [if_neg none]⟩

theorem arrangeOne (s : Statement) : arrange [s] = [s] := by
  by_cases future : s.source = futureModule
  · have absolute : s.isRelative = false := by
      rw [isRelative, future]
      decide
    simp [arrange, sortBySource, future, absolute]
  · cases relative : s.isRelative <;> simp [arrange, sortBySource, future, relative]

theorem blockOne {s : Statement} (held : s.isEmpty = false) (plain : s.typeOnly = []) :
    block [s] = s.imports := by
  simp only [block, guarded, List.filter_cons, List.filter_nil, held, plain, ne_eq, not_true_eq_false,
    decide_false, Bool.not_false, Bool.false_eq_true, if_true, if_false, List.map_nil, List.isEmpty_nil,
    arrangeOne]
  cases written : s.imports <;> simp [written, bind, Except.bind, pure, Except.pure]

theorem guardedNamed {statements : List Statement} : ∀ s ∈ guarded statements, ¬s.Unnamed := by
  intro s member
  obtain ⟨old, _, rfl⟩ := List.mem_map.mp member
  intro unnamed
  rcases unnamed with ⟨_, space | whole⟩
  · exact space rfl
  · exact whole rfl

theorem presentUnnamed {statements : List Statement} :
    (∀ s ∈ present statements, ¬s.Unnamed) ↔ ∀ s ∈ statements, ¬s.Unnamed := by
  refine ⟨fun each s member unnamed => ?_, fun each s member => each s (presentMember.mp member).1⟩
  refine each s (presentMember.mpr ⟨member, ?_⟩) unnamed
  rcases unnamed.2 with space | whole
  · cases held : s.namespaceAlias with
    | none => simp [held, given] at space
    | some _ => simp [isEmpty, held]
  · cases held : s.default with
    | none => simp [held, given] at whole
    | some _ => simp [isEmpty, held]

theorem shownUnnamed {statements : List Statement} :
    (∀ s ∈ shown statements, ¬s.Unnamed) ↔ ∀ s ∈ statements, ¬s.Unnamed := by
  unfold shown
  split
  · exact presentUnnamed
  · exact guardUnnamed.trans presentUnnamed

theorem eachWritten {statements : List Statement} :
    (∃ nodes, statements.mapM imports = .ok nodes) ↔ ∀ s ∈ statements, ¬s.Unnamed := by
  simp only [Outcome.eachSucceeds, importsWritten]

theorem blockWritten {statements : List Statement} :
    (∃ nodes, block statements = .ok nodes) ↔ ∀ s ∈ statements, ¬s.Unnamed := by
  rw [← shownUnnamed]
  constructor
  · intro written
    obtain ⟨nodes, written⟩ := written
    obtain ⟨values, _, blocked⟩ := blockBlocked.mp written
    have named := eachWritten.mp ⟨values, Outcome.eachOk.mpr blocked.plain⟩
    exact fun s member => named s (arrangeMember.mpr member)
  · intro named
    obtain ⟨values, plain⟩ := eachWritten.mpr fun s member => named s (arrangeMember.mp member)
    obtain ⟨types, hidden⟩ := eachWritten.mpr fun s member => guardedNamed s (List.mem_mergeSort.mp member)
    exact ⟨_, blockBlocked.mpr ⟨values, types, Outcome.eachOk.mp plain, Outcome.eachOk.mp hidden, rfl⟩⟩

theorem renderNone : render [] = .ok "" := by
  have arranged : arrange [] = [] := by simp [arrange, sortBySource]
  have empty : block [] = .ok [] := by
    simp only [block, guarded, List.filter_nil, List.map_nil, List.isEmpty_nil, if_true, arranged]
    rfl
  simp only [render, empty]
  rfl

theorem unitedUnnamed {statements : List Statement} :
    ¬(united statements "").Unnamed ↔ Importable statements := by
  simp only [Unnamed, united, Importable, true_and, not_or, ne_eq, not_not]
  exact And.comm

theorem renderWritten {statements : List Statement} :
    (∃ text, render (merge statements) = .ok text) ↔ Importable statements := by
  have block : (∃ text, render (merge statements) = .ok text) ↔
      ∃ nodes, block (merge statements) = .ok nodes := by
    simp [render, Outcome.bindSucceeds]
  rw [block, blockWritten, ← unitedUnnamed]
  constructor
  · intro each
    by_cases known : "" ∈ statements.map (·.source)
    · exact each _ (mergeMember.mpr ⟨known, rfl⟩)
    · rw [unitedNone known]
      intro unnamed
      rcases unnamed with ⟨_, space | whole⟩
      · exact space rfl
      · exact whole rfl
  · intro named s member unnamed
    have equal := (mergeMember.mp member).2
    rw [unnamed.1] at equal
    exact named (equal ▸ unnamed)

end Codegen.Statement
