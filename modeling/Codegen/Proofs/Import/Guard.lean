import Codegen.Proofs.Import.Bound
import Mathlib.Data.List.Nodup

/-! The guard of imports that serve for types only. Its name is asked of the statement for its module, which
is added if there is none, and so stands in front of the guard, unless that statement imports its module as
a namespace: the namespace takes the place of the names, and of the guard's name with them. -/
namespace Codegen.Statement

open Source (Alias Stmt)

/-- An import that binds a name where it stands. A module that is imported under no other name binds the
first name of its path. -/
inductive Binds (name : String) : Stmt → Prop where
  | module {names : List Alias} {a : Alias} (listed : a ∈ names)
      (bound : a.bound.getD ((Text.split '.' a.name).headD "") = name) : Binds name (.importModules names)
  | taken {level : Nat} {source : Option String} {names : List Alias} {a : Alias} (listed : a ∈ names)
      (bound : a.bound.getD a.name = name) : Binds name (.importFrom level source names)

theorem takesBinds {source name : String} {node : Stmt} (takes : TakesName source name node) :
    Binds name node := by
  obtain ⟨_, listed⟩ := takes
  exact .taken listed rfl

theorem moduleNode {source bound : String} {node : Stmt} (ok : bindModule source bound = .ok node) :
    (∃ a, node = .importModules [a]) ∨
      ∃ level parent a, 0 < level ∧ node = .importFrom level parent [a] := by
  unfold bindModule at ok
  split at ok
  · cases ok
  · cases ok
    exact .inl ⟨_, rfl⟩
  · rename_i below _
    cases ok
    exact .inr ⟨_, _, _, Nat.pos_of_ne_zero below, rfl⟩
  · rename_i below _
    cases ok
    exact .inr ⟨_, _, _, Nat.pos_of_ne_zero below, rfl⟩

theorem importsPlain {s : Statement} {nodes : List Stmt} (ok : s.imports = .ok nodes)
    (test : Source.Expr) (body orelse : List Stmt) : .branch test body orelse ∉ nodes := by
  have values : .branch test body orelse ∉ s.valueNodes := by
    unfold valueNodes
    split <;> simp [importNames]
  have module {bound : String} {node : Stmt} (binds : bindModule s.source bound = .ok node) :
      .branch test body orelse ≠ node := by
    rcases moduleNode binds with ⟨_, rfl⟩ | ⟨_, _, _, _, rfl⟩ <;> simp
  cases importsImported ok with
  | spaced _ binds => simpa using module binds
  | whole _ _ binds => simpa using ⟨module binds, values⟩
  | named => exact values

theorem importsTake {s : Statement} {nodes : List Stmt} {source name : String} {node : Stmt}
    (ok : s.imports = .ok nodes) (member : node ∈ nodes) (takes : TakesName source name node)
    (absolute : source.toList.head? ≠ some '.') : s.source = source ∧ given s.namespaceAlias = none := by
  have values (inside : node ∈ s.valueNodes) : s.source = source := by
    unfold valueNodes at inside
    split at inside
    · cases inside
    · rw [List.mem_singleton.mp inside] at takes
      cases takes with
      | taken module _ => rw [← module, (sourceSplit rfl).1]
  have module {bound : String} (binds : bindModule s.source bound = .ok node) : False := by
    rcases moduleNode binds with ⟨_, rfl⟩ | ⟨level, parent, a, below, rfl⟩
    · cases takes
    · cases takes with
      | taken module _ =>
        obtain ⟨n, rfl⟩ := Nat.exists_eq_succ_of_ne_zero below.ne'
        exact absurd (by simp [← module, sourceText, List.replicate_succ]) absolute
  cases importsImported ok with
  | spaced _ binds => exact (module (List.mem_singleton.mp member ▸ binds)).elim
  | whole space _ binds =>
    rcases List.mem_cons.mp member with rfl | inside
    · exact (module binds).elim
    · exact ⟨values inside, space⟩
  | named space => exact ⟨values member, space⟩

section Guard

variable {statements : List Statement} {s : Statement}

theorem guardMember (distinct : (statements.map (·.source)).Nodup) : s ∈ withGuard statements ↔
    (s ∈ statements ∧ s.source ≠ guardModule) ∨
    (∃ t ∈ statements, t.source = guardModule ∧ s = requireGuard t) ∨
    ((∀ t ∈ statements, t.source ≠ guardModule) ∧ s = requireGuard { source := guardModule }) := by
  rcases guardPlaced statements with ⟨none, added⟩ | ⟨before, typing, after, rfl, own, replaced⟩
  · rw [added, List.mem_append, List.mem_singleton]
    constructor
    · rintro (listed | rfl)
      · exact .inl ⟨listed, none s listed⟩
      · exact .inr (.inr ⟨none, rfl⟩)
    · rintro (⟨listed, _⟩ | ⟨t, listed, same, _⟩ | ⟨_, rfl⟩)
      · exact .inl listed
      · exact absurd same (none t listed)
      · exact .inr rfl
  · have others : ∀ t ∈ before ++ after, t.source ≠ guardModule := by
      rw [List.map_append, List.map_cons, List.nodup_middle, ← List.map_append] at distinct
      intro t listed same
      exact (List.nodup_cons.mp distinct).1 (List.mem_map.mpr ⟨t, listed, same.trans own.symm⟩)
    have split {t u : Statement} : t ∈ before ++ u :: after ↔ t = u ∨ t ∈ before ++ after := by
      simp [or_left_comm]
    simp only [replaced, split]
    constructor
    · rintro (rfl | listed)
      · exact .inr (.inl ⟨typing, .inl rfl, own, rfl⟩)
      · exact .inl ⟨.inr listed, others s listed⟩
    · rintro (⟨rfl | listed, other⟩ | ⟨t, rfl | listed, same, rfl⟩ | ⟨none, _⟩)
      · exact absurd own other
      · exact .inr listed
      · exact .inl rfl
      · exact absurd same (others t listed)
      · exact absurd own (none typing (.inl rfl))

theorem presentDistinct (distinct : (statements.map (·.source)).Nodup) :
    ((present statements).map (·.source)).Nodup :=
  distinct.sublist (List.filter_sublist.map _)

theorem guardNamed (s : Statement) : guardName ∈ (requireGuard s).named := by
  unfold requireGuard
  split
  · assumption
  · simp

theorem guardKept (s : Statement) : (requireGuard s).source = s.source ∧
    (requireGuard s).namespaceAlias = s.namespaceAlias := by
  obtain ⟨source, _, space, _⟩ := coversGuard s
  exact ⟨source, space⟩

theorem guardSupplied (distinct : (statements.map (·.source)).Nodup) : ∃ s ∈ withGuard statements,
    s.source = guardModule ∧ guardName ∈ s.named ∧
      (s.namespaceAlias = none ∨ ∃ t ∈ statements, t.source = guardModule ∧
        s.namespaceAlias = t.namespaceAlias) := by
  by_cases typing : ∃ t ∈ statements, t.source = guardModule
  · obtain ⟨t, member, same⟩ := typing
    obtain ⟨source, space⟩ := guardKept t
    exact ⟨requireGuard t, (guardMember distinct).mpr (.inr (.inl ⟨t, member, same, rfl⟩)),
      source.trans same, guardNamed t, .inr ⟨t, member, same, space⟩⟩
  · have none : ∀ t ∈ statements, t.source ≠ guardModule := fun t member same => typing ⟨t, member, same⟩
    exact ⟨_, (guardMember distinct).mpr (.inr (.inr ⟨none, rfl⟩)), (guardKept _).1, guardNamed _,
      .inl (guardKept _).2⟩

end Guard

structure Usable (statements : List Statement) (before : List Stmt) : Prop where
  bound : (∀ s ∈ statements, s.source = guardModule → given s.namespaceAlias = none) →
    ∃ node ∈ before, TakesName guardModule guardName node ∧ Binds guardName node
  replaced : ∀ s ∈ statements, s.source = guardModule → given s.namespaceAlias ≠ none →
    ∀ node ∈ before, ¬TakesName guardModule guardName node

theorem valuesUsable {statements : List Statement} {values : List (List Stmt)}
    (distinct : (statements.map (·.source)).Nodup)
    (plain : List.Forall₂ (fun s part => s.imports = .ok part)
      (arrange (withGuard (present statements))) values) : Usable statements values.flatten := by
  have kept := presentDistinct distinct
  constructor
  · intro alone
    obtain ⟨s, listed, typing, named, space⟩ := guardSupplied kept
    obtain ⟨part, written, imported⟩ := Outcome.eachPaired plain s (arrangeMember.mpr listed)
    have free : given s.namespaceAlias = none := by
      rcases space with none | ⟨t, member, same, equal⟩
      · rw [none]
        rfl
      · rw [equal]
        exact alone t (List.mem_filter.mp member).1 same
    obtain ⟨node, inside, takes⟩ := importsNamed imported free named
    rw [typing] at takes
    exact ⟨node, List.mem_flatten.mpr ⟨part, written, inside⟩, takes, takesBinds takes⟩
  · intro t member typing spaced node inside takes
    obtain ⟨part, written, inside⟩ := List.mem_flatten.mp inside
    obtain ⟨s, listed, imported⟩ := Outcome.eachPaired plain.flip part written
    obtain ⟨source, free⟩ := importsTake imported inside takes (by decide)
    have held : t ∈ present statements := by
      refine List.mem_filter.mpr ⟨member, ?_⟩
      cases space : t.namespaceAlias with
      | none => simp [space, given] at spaced
      | some _ => simp [isEmpty, space]
    rcases (guardMember kept).mp (arrangeMember.mp listed) with ⟨_, other⟩ | ⟨q, known, same, rfl⟩ | ⟨none, _⟩
    · exact other source
    · have equal : q = t := List.inj_on_of_nodup_map kept known held (same.trans typing.symm)
      rw [(guardKept q).2, equal] at free
      exact spaced free
    · exact none t held typing

theorem guardUsable {statements : List Statement} {text : String}
    (distinct : (statements.map (·.source)).Nodup) (ok : render statements = .ok text) :
    ∃ nodes, block statements = .ok nodes ∧ text = Text.join "\n" (nodes.map Stmt.text) ∧
      ∀ before test body orelse after, nodes = before ++ .branch test body orelse :: after →
        test = .name guardName ∧ orelse = [] ∧ after = [] ∧ Usable statements before := by
  obtain ⟨nodes, written, last⟩ := Outcome.bindOk.mp ok
  cases last
  refine ⟨nodes, written, rfl, fun before test body orelse after split => ?_⟩
  obtain ⟨values, types, plain, _, whole⟩ := blockBlocked.mp written
  have unguarded : .branch test body orelse ∉ values.flatten := by
    intro member
    obtain ⟨part, listed, inside⟩ := List.mem_flatten.mp member
    obtain ⟨s, _, imported⟩ := Outcome.eachPaired plain.flip part listed
    exact importsPlain imported test body orelse inside
  rw [shown] at plain
  split at whole
  · rw [List.append_nil] at whole
    exact absurd (by simp [← whole, split]) unguarded
  · rename_i some
    rw [if_neg some] at plain
    obtain ⟨front, same, rfl⟩ := (List.append_cons_inj_of_notMem unguarded List.not_mem_nil).mp
      (whole.symm.trans split)
    cases same
    exact ⟨rfl, rfl, rfl, front ▸ valuesUsable distinct plain⟩

namespace Sample

def hidden : List Statement :=
  [{ source := "m", types := ["A"] }]

def spaced : List Statement :=
  { source := "typing", namespaceAlias := some "t" } :: hidden

def guard : Stmt :=
  .branch (.name guardName) [importNames "m" ["A"]] []

theorem hiddenBlock : block hidden = .ok [importNames "typing" [guardName], guard] := by
  have values : shown hidden =
      [{ source := "m", types := ["A"] }, { source := "typing", named := [guardName] }] := by decide
  have types : guarded (present hidden) = [{ source := "m", named := ["A"] }] := by decide
  have sorted : arrange (shown hidden) = shown hidden := by
    rw [values]
    cbv
  refine blockBlocked.mpr ⟨[[], [importNames "typing" [guardName]]], [[importNames "m" ["A"]]], ?_, ?_, rfl⟩
  · rw [sorted, values]
    exact .cons rfl (.cons rfl .nil)
  · rw [types, sortBySource, List.mergeSort_singleton]
    exact .cons rfl .nil

theorem spacedBlock : block spaced = .ok [.importModules [⟨"typing", some "t"⟩], guard] := by
  have values : shown spaced = [{ source := "typing", namespaceAlias := some "t", named := [guardName] },
      { source := "m", types := ["A"] }] := by decide
  have types : guarded (present spaced) = [{ source := "m", named := ["A"] }] := by decide
  have sorted : arrange (shown spaced) = [{ source := "m", types := ["A"] },
      { source := "typing", namespaceAlias := some "t", named := [guardName] }] := by
    rw [values]
    cbv
  refine blockBlocked.mpr ⟨[[], [.importModules [⟨"typing", some "t"⟩]]], [[importNames "m" ["A"]]], ?_, ?_, rfl⟩
  · rw [sorted]
    exact .cons rfl (.cons rfl .nil)
  · rw [types, sortBySource, List.mergeSort_singleton]
    exact .cons rfl .nil

theorem hiddenRendered : render hidden =
    .ok "from typing import TYPE_CHECKING\nif TYPE_CHECKING:\n    from m import A" := by
  have text : Text.join "\n" ([importNames "typing" [guardName], guard].map Stmt.text) =
      "from typing import TYPE_CHECKING\nif TYPE_CHECKING:\n    from m import A" := by decide +kernel
  rw [render, hiddenBlock]
  exact congrArg Except.ok text

theorem spacedRendered : render spaced =
    .ok "import typing as t\nif TYPE_CHECKING:\n    from m import A" := by
  have text : Text.join "\n" ([.importModules [⟨"typing", some "t"⟩], guard].map Stmt.text) =
      "import typing as t\nif TYPE_CHECKING:\n    from m import A" := by decide +kernel
  rw [render, spacedBlock]
  exact congrArg Except.ok text

theorem hiddenGuarded : block hidden = .ok [importNames "typing" [guardName], guard] ∧
    ∃ node ∈ [importNames "typing" [guardName]], TakesName guardModule guardName node ∧
      Binds guardName node := by
  obtain ⟨nodes, written, _, each⟩ := guardUsable (by decide) hiddenRendered
  rw [hiddenBlock] at written
  cases written
  obtain ⟨_, _, _, usable⟩ := each [importNames "typing" [guardName]] _ _ _ [] rfl
  exact ⟨hiddenBlock, usable.bound (by decide)⟩

theorem guardUnbound : (spaced.map (·.source)).Nodup ∧
    render spaced = .ok "import typing as t\nif TYPE_CHECKING:\n    from m import A" ∧
    block spaced = .ok [.importModules [⟨"typing", some "t"⟩], guard] ∧
    ∀ node ∈ [Stmt.importModules [⟨"typing", some "t"⟩]], ¬Binds guardName node := by
  refine ⟨by decide, spacedRendered, spacedBlock, fun node member binds => ?_⟩
  rw [List.mem_singleton.mp member] at binds
  cases binds with
  | module listed bound =>
    rw [List.mem_singleton.mp listed] at bound
    exact absurd bound (by decide)

end Sample
end Codegen.Statement
