import Codegen.Proofs.Import.Block
import Mathlib.Data.List.TakeWhile

/-! What the nodes of an import block bind. A default binds a module of the file's own tree to a name;
names of values and types are taken from their module, those of types perhaps under the guard. Sorting
and guarding keep every import of a statement, unless a namespace takes the place of its values. -/
namespace Codegen.Statement

open Source (Alias Stmt)

def dotted (parent : Option String) (leaf : String) : String :=
  match parent with
  | none => leaf
  | some parent => parent ++ "." ++ leaf

def sourceText (level : Nat) (module : Option String) : String :=
  String.ofList (List.replicate level '.') ++ module.getD ""

/-- Binds a name to a module, which is a child of a package that is written with dots. A module that is
written with dots alone has no name of its own; its default is taken from it. -/
inductive BindsModule (source name : String) : Stmt → Prop where
  | child {level : Nat} {parent : Option String} {a : Alias} (below : 0 < level)
      (module : sourceText level (some (dotted parent a.name)) = source)
      (bound : a.bound.getD a.name = name) : BindsModule source name (.importFrom level parent [a])
  | package {level : Nat} (below : 0 < level) (module : sourceText level none = source) :
      BindsModule source name (.importFrom level none [⟨name, none⟩])

inductive TakesName (source name : String) : Stmt → Prop where
  | taken {level : Nat} {parent : Option String} {names : List Alias}
      (module : sourceText level parent = source) (listed : ⟨name, none⟩ ∈ names) :
      TakesName source name (.importFrom level parent names)

inductive TakesType (source name : String) (nodes : List Stmt) : Prop where
  | plain {node : Stmt} (member : node ∈ nodes) (takes : TakesName source name node)
  | guarded {body : List Stmt} {node : Stmt} (member : .branch (.name guardName) body [] ∈ nodes)
      (inside : node ∈ body) (takes : TakesName source name node)

def wholeName (s : Statement) : Option String :=
  (given s.namespaceAlias).or (given s.default)

theorem sourceSplit {source : String} {level : Nat} {module : Option String}
    (split : splitSource source = (level, module)) :
    sourceText level module = source ∧ ∀ m, module = some m → m.toList.head? ≠ some '.' := by
  cases split
  have parts := List.takeWhile_append_dropWhile (p := (· = '.')) (l := source.toList)
  have dots : List.replicate (source.length - (Text.dropLeading '.' source).length) '.' =
      source.toList.takeWhile (· = '.') := by
    have lengths := congrArg List.length parts
    rw [List.length_append, String.length_toList] at lengths
    rw [Text.dropLeading, String.length_ofList, eq_comm, List.eq_replicate_iff]
    exact ⟨by omega, fun c member => by simpa using List.mem_takeWhile_imp member⟩
  have plain : (source.toList.dropWhile (· = '.')).head? ≠ some '.' := by
    intro first
    have := List.head?_dropWhile_not (· = '.') source.toList
    simp [first] at this
  constructor
  · rw [sourceText, dots]
    apply String.toList_inj.mp
    split
    · rename_i empty
      have none : source.toList.dropWhile (· = '.') = [] := by
        simpa [Text.dropLeading] using empty
      rw [none, List.append_nil] at parts
      simp [parts]
    · simp [Text.dropLeading, parts]
  · intro m given
    split at given
    · cases given
    · cases given
      simpa [Text.dropLeading] using plain

theorem moduleSplit {module : String} (plain : module.toList.head? ≠ some '.') :
    dotted (splitModule module).1 (splitModule module).2 = module := by
  have parts := List.takeWhile_append_dropWhile (p := (· ≠ '.')) (l := module.toList.reverse)
  have mark := List.head?_dropWhile_not (· ≠ '.') module.toList.reverse
  simp only [splitModule]
  generalize module.toList.reverse.takeWhile (· ≠ '.') = last at parts
  generalize module.toList.reverse.dropWhile (· ≠ '.') = rest at parts mark
  have text : module.toList = rest.reverse ++ last.reverse := by
    rw [← List.reverse_append, parts, List.reverse_reverse]
  rw [← String.toList_inj, text]
  cases rest with
  | nil => simp [dotted]
  | cons c before =>
    have dot : c = '.' := by simpa using mark
    have named : before ≠ [] := by
      intro none
      simp [text, none, dot] at plain
    have length : ((c :: before).reverse ++ last.reverse).length = before.length + 1 + last.length := by
      simp only [List.length_append, List.length_reverse, List.length_cons]
    have front : ((c :: before).reverse ++ last.reverse).take (before.length + 1 + last.length - last.length - 1)
        = before.reverse := by simp
    have back : ((c :: before).reverse ++ last.reverse).drop (before.length + 1 + last.length - last.length)
        = last.reverse := by simp [List.drop_append]
    rw [length, front, back]
    simp [dotted, dot, named]

theorem relativeLevel {source : String} (dot : source.toList.head? = some '.') :
    (splitSource source).1 ≠ 0 := by
  obtain ⟨rest, text⟩ := List.head?_eq_some_iff.mp dot
  have shorter := (List.dropWhile_sublist (· = '.') (l := rest)).length_le
  rw [splitSource, Text.dropLeading, ← String.length_toList, text, String.length_ofList]
  simp only [decide_true, List.dropWhile_cons_of_pos, List.length_cons]
  omega

theorem moduleBinds {source bound : String} {node : Stmt} (relative : (splitSource source).1 ≠ 0)
    (ok : bindModule source bound = .ok node) : BindsModule source bound node := by
  unfold bindModule at ok
  split at ok
  · cases ok
  · rename_i split
    simp [split] at relative
  · rename_i level nonzero split
    cases ok
    refine .package ?_ (sourceSplit split).1
    rw [split] at relative
    exact Nat.pos_of_ne_zero relative
  · rename_i level module nonzero split
    obtain ⟨joined, plain⟩ := sourceSplit split
    have parts := moduleSplit (plain module rfl)
    generalize splitModule module = pieces at ok parts
    obtain ⟨parent, leaf⟩ := pieces
    cases ok
    refine .child ?_ (by rw [← joined, ← parts]; rfl) ?_
    · rw [split] at relative
      exact Nat.pos_of_ne_zero relative
    · unfold bindAs
      split <;> simp_all

theorem namesTaken {source name : String} {names : List String} (member : name ∈ names) :
    TakesName source name (importNames source names) := by
  refine .taken (sourceSplit rfl).1 (List.mem_map.mpr ⟨name, ?_, rfl⟩)
  exact List.mem_mergeSort.mpr member

section Imports

variable {s : Statement} {nodes : List Stmt} {name : String}

theorem importsWhole (ok : s.imports = .ok nodes) (relative : (splitSource s.source).1 ≠ 0)
    (whole : s.wholeName = some name) : ∃ node ∈ nodes, BindsModule s.source name node := by
  unfold wholeName at whole
  cases importsImported ok with
  | spaced space binds =>
    rw [space, Option.some_or, Option.some.injEq] at whole
    exact ⟨_, List.mem_cons_self, whole ▸ moduleBinds relative binds⟩
  | whole space default binds =>
    rw [space, Option.none_or, default, Option.some.injEq] at whole
    exact ⟨_, List.mem_cons_self, whole ▸ moduleBinds relative binds⟩
  | named space default => simp [space, default] at whole

theorem importsNamed (ok : s.imports = .ok nodes) (space : given s.namespaceAlias = none)
    (member : name ∈ s.named) : ∃ node ∈ nodes, TakesName s.source name node := by
  have held : importNames s.source s.named ∈ s.valueNodes := by
    rw [valueNodes, if_neg (by simpa using List.ne_nil_of_mem member)]
    exact List.mem_singleton_self _
  have within : s.valueNodes ⊆ nodes := by
    cases importsImported ok with
    | spaced taken => simp [space] at taken
    | whole => exact List.subset_cons_self _ _
    | named => exact List.Subset.refl _
  exact ⟨_, within held, namesTaken member⟩

end Imports

structure Covers (s covered : Statement) : Prop where
  source : s.source = covered.source
  default : s.default = covered.default
  namespaceAlias : s.namespaceAlias = covered.namespaceAlias
  named : covered.named ⊆ s.named

theorem coversGuard (s : Statement) : Covers (requireGuard s) s := by
  unfold requireGuard
  split
  · exact ⟨rfl, rfl, rfl, List.Subset.refl _⟩
  · exact ⟨rfl, rfl, rfl, List.subset_append_left ..⟩

theorem guardCovers {statements : List Statement} {s : Statement} (member : s ∈ statements) :
    ∃ kept ∈ withGuard statements, Covers kept s := by
  have same : Covers s s := ⟨rfl, rfl, rfl, List.Subset.refl _⟩
  rcases guardPlaced statements with ⟨_, added⟩ | ⟨before, t, after, rfl, _, replaced⟩
  · rw [added]
    exact ⟨s, List.mem_append_left _ member, same⟩
  · rw [replaced]
    rcases List.mem_append.mp member with front | inside
    · exact ⟨s, List.mem_append_left _ front, same⟩
    · rcases List.mem_cons.mp inside with rfl | last
      · exact ⟨_, List.mem_append_right _ List.mem_cons_self, coversGuard s⟩
      · exact ⟨s, List.mem_append_right _ (List.mem_cons_of_mem _ last), same⟩

section Block

variable {statements : List Statement} {nodes : List Stmt} {s : Statement} {name : String}

theorem blockParts (ok : block statements = .ok nodes) (member : s ∈ statements)
    (held : s.isEmpty = false) : ∃ kept part, Covers kept s ∧ kept.imports = .ok part ∧ part ⊆ nodes := by
  have listed := presentMember.mpr ⟨member, held⟩
  have covered : ∃ kept ∈ shown statements, Covers kept s := by
    unfold shown
    split
    · exact ⟨s, listed, rfl, rfl, rfl, List.Subset.refl _⟩
    · exact guardCovers listed
  obtain ⟨kept, inside, covers⟩ := covered
  obtain ⟨values, types, plain, _, rfl⟩ := blockBlocked.mp ok
  obtain ⟨part, written, imported⟩ := Outcome.eachPaired plain kept (arrangeMember.mpr inside)
  refine ⟨kept, part, covers, imported, fun node member => ?_⟩
  exact List.mem_append_left _ (List.mem_flatten.mpr ⟨part, written, member⟩)

theorem blockWhole (ok : block statements = .ok nodes) (member : s ∈ statements)
    (relative : (splitSource s.source).1 ≠ 0) (whole : s.wholeName = some name) :
    ∃ node ∈ nodes, BindsModule s.source name node := by
  have held : s.isEmpty = false := by
    by_contra empty
    simp only [isEmpty, Bool.not_eq_false, Bool.and_eq_true, Option.isNone_iff_eq_none] at empty
    simp [wholeName, empty, given] at whole
  obtain ⟨kept, part, covers, imported, within⟩ := blockParts ok member held
  rw [← covers.source] at relative ⊢
  rw [wholeName, ← covers.default, ← covers.namespaceAlias] at whole
  obtain ⟨node, inside, binds⟩ := importsWhole imported relative whole
  exact ⟨node, within inside, binds⟩

theorem blockNamed (ok : block statements = .ok nodes) (member : s ∈ statements)
    (space : given s.namespaceAlias = none) (listed : name ∈ s.named) :
    ∃ node ∈ nodes, TakesName s.source name node := by
  have held : s.isEmpty = false := by
    simp [isEmpty, List.ne_nil_of_mem listed]
  obtain ⟨kept, part, covers, imported, within⟩ := blockParts ok member held
  rw [← covers.source]
  rw [← covers.namespaceAlias] at space
  obtain ⟨node, inside, takes⟩ := importsNamed imported space (covers.named listed)
  exact ⟨node, within inside, takes⟩

theorem blockHidden (ok : block statements = .ok nodes) (member : s ∈ statements)
    (listed : name ∈ s.typeOnly) : TakesType s.source name nodes := by
  have type := guardedMember.mpr ⟨s, member, List.ne_nil_of_mem listed, rfl⟩
  obtain ⟨values, types, _, hidden, rfl⟩ := blockBlocked.mp ok
  obtain ⟨part, inside, imported⟩ := Outcome.eachPaired hidden _ (List.mem_mergeSort.mpr type)
  obtain ⟨node, last, takes⟩ := importsNamed imported rfl listed
  rw [if_neg (by simpa using List.ne_nil_of_mem type)]
  exact .guarded (by simp) (List.mem_flatten.mpr ⟨part, inside, last⟩) takes

theorem blockType (ok : block statements = .ok nodes) (member : s ∈ statements)
    (listed : name ∈ s.types) (space : name ∈ s.named → given s.namespaceAlias = none) :
    TakesType s.source name nodes := by
  by_cases value : name ∈ s.named
  · obtain ⟨node, inside, takes⟩ := blockNamed ok member (space value) value
    exact .plain inside takes
  · exact blockHidden ok member (by simp [typeOnly, listed, value])

end Block

end Codegen.Statement
