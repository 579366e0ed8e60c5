import Codegen.Proofs.Import.Guard
import Codegen.Proofs.Text.Lines

/-! The lines of an import block whose statements have no namespace. Every statement that is not empty has
a line for its default and one for its names, the names for types alone follow under the guard, and there
is no other line. Sorting brings the lines into an order that the sources alone decide. -/
namespace Codegen.Statement

open Source (Alias Stmt indented)

def renamed (name bound : String) : String :=
  if bound = name then name else name ++ " as " ++ bound

inductive BindingLine (source name : String) : String → Prop where
  | absolute (top : source.toList.head? ≠ some '.') :
      BindingLine source name ("import " ++ renamed source name)
  | relative {level : Nat} {parent : Option String} {leaf : String} (below : 0 < level)
      (package : ∀ p, parent = some p → p ≠ "" ∧ p.toList.head? ≠ some '.') (plain : '.' ∉ leaf.toList)
      (module : sourceText level (some (dotted parent leaf)) = source) :
      BindingLine source name ("from " ++ sourceText level parent ++ " import " ++ renamed leaf name)

inductive TakingLine (source : String) (names : List String) : String → Prop where
  | taken {ordered : List String} (same : ordered.Perm names) (sorted : ordered.Pairwise (· ≤ ·)) :
      TakingLine source names ("from " ++ source ++ " import " ++ Text.join ", " ordered)

inductive DefaultLines (s : Statement) : List String → Prop where
  | none (absent : given s.default = none) : DefaultLines s []
  | bound {name line : String} (default : given s.default = some name)
      (binding : BindingLine s.source name line) : DefaultLines s [line]

inductive NamedLines (source : String) : List String → List String → Prop where
  | none : NamedLines source [] []
  | taken {names : List String} {line : String} (some : names ≠ [])
      (taking : TakingLine source names line) : NamedLines source names [line]

inductive ValueLines (s : Statement) : List String → Prop where
  | lines {whole named : List String} (default : DefaultLines s whole)
      (taking : NamedLines s.source s.named named) : ValueLines s (whole ++ named)

def rank (source : String) : Nat :=
  if source = futureModule then 0 else if source.toList.head? = some '.' then 2 else 1

def Before (s t : Statement) : Prop :=
  rank s.source < rank t.source ∨ rank s.source = rank t.source ∧ s.source < t.source

inductive Shown (statements : List Statement) : Statement → Prop where
  | kept {s : Statement} (member : s ∈ statements) (held : s.isEmpty = false)
      (other : s.source ≠ guardModule ∨ ∀ t ∈ statements, t.typeOnly = []) : Shown statements s
  | extended {s : Statement} (member : s ∈ statements) (held : s.isEmpty = false)
      (typing : s.source = guardModule) (hidden : ∃ t ∈ statements, t.typeOnly ≠ []) :
      Shown statements (requireGuard s)
  | created (absent : ∀ s ∈ statements, s.source = guardModule → s.isEmpty = true)
      (hidden : ∃ t ∈ statements, t.typeOnly ≠ []) :
      Shown statements { source := guardModule, named := [guardName] }

structure Regrouping (statements : List Statement) where
  values : List Statement
  types : List (String × List String)
  plain : List (List String)
  inside : List String
  shown : ∀ s, s ∈ values ↔ Shown statements s
  ordered : values.Pairwise Before
  hidden : ∀ source names, (source, names) ∈ types ↔
    ∃ s ∈ statements, s.source = source ∧ s.typeOnly = names ∧ names ≠ []
  sorted : types.Pairwise (fun a b => a.1 < b.1)
  written : List.Forall₂ ValueLines values plain
  guarded : List.Forall₂ (fun type line => TakingLine type.1 type.2 line) types inside

def Regrouping.lines {statements : List Statement} (r : Regrouping statements) : List String :=
  r.plain.flatten ++
    if r.types.isEmpty then [] else "if TYPE_CHECKING:" :: r.inside.map ("    " ++ ·)

structure Plain (statements : List Statement) : Prop where
  distinct : (statements.map (·.source)).Nodup
  alone : ∀ s ∈ statements, given s.namespaceAlias = none
  module : ∀ s ∈ statements, given s.default ≠ none → ∃ c ∈ s.source.toList, c ≠ '.'

section Lines

variable {source name : String} {node : Stmt}

theorem lastPart (p : Char → Bool) (cs : List Char) :
    cs.drop (cs.length - (cs.reverse.takeWhile p).length) = (cs.reverse.takeWhile p).reverse := by
  have parts := List.takeWhile_append_dropWhile (p := p) (l := cs.reverse)
  generalize cs.reverse.takeWhile p = last at parts ⊢
  generalize cs.reverse.dropWhile p = rest at parts
  have text : cs = rest.reverse ++ last.reverse := by
    rw [← List.reverse_append, parts, List.reverse_reverse]
  subst text
  exact List.drop_left' (by simp)

theorem moduleParts {module : String} (plain : module.toList.head? ≠ some '.') :
    (∀ p, (splitModule module).1 = some p → p ≠ "" ∧ p.toList.head? ≠ some '.') ∧
      '.' ∉ (splitModule module).2.toList := by
  constructor
  · intro p parent
    simp only [splitModule] at parent
    split at parent
    · cases parent
    · rename_i some
      cases parent
      refine ⟨by simpa using some, fun first => plain ?_⟩
      rw [String.toList_ofList, List.head?_take] at first
      split at first
      · cases first
      · exact first
  · intro dot
    simp only [splitModule, String.toList_ofList, lastPart, List.mem_reverse] at dot
    simpa using List.mem_takeWhile_imp dot

theorem aliasText (name : String) {bound : String} (some : bound ≠ "") :
    (bindAs name bound).text = renamed name bound := by
  unfold bindAs Alias.text renamed
  by_cases same : bound = name
  · simp [same]
  · simp [same, some]

theorem plainText {line : String} (lines : Stmt.lines 0 node = [line]) : node.text = line := by
  simp [Stmt.text, lines, Text.join]

theorem importText (aliases : List Alias) :
    (Stmt.importModules aliases).text = "import " ++ Source.names aliases :=
  plainText (by simp [Stmt.lines, indented])

theorem fromText (level : Nat) (source : Option String) (aliases : List Alias) :
    (Stmt.importFrom level source aliases).text =
      "from " ++ sourceText level source ++ " import " ++ Source.names aliases :=
  plainText (by simp [Stmt.lines, indented, Stmt.fromLine, sourceText, String.append_assoc])

theorem oneName (a : Alias) : Source.names [a] = a.text := by
  simp [Source.names, Text.join]

theorem bindingText (ok : bindModule source name = .ok node) (some : name ≠ "")
    (module : ∃ c ∈ source.toList, c ≠ '.') : BindingLine source name node.text := by
  unfold bindModule at ok
  split at ok
  · cases ok
  · rename_i module split
    obtain ⟨joined, plain⟩ := sourceSplit split
    have same : module = source := by simpa [sourceText] using joined
    cases ok
    rw [importText, oneName, aliasText module some, same]
    exact .absolute (same ▸ plain module rfl)
  · rename_i level _ split
    obtain ⟨c, member, other⟩ := module
    have dots : source.toList = List.replicate level '.' := by simp [← (sourceSplit split).1, sourceText]
    rw [dots] at member
    exact absurd (List.eq_of_mem_replicate member) other
  · rename_i level module below split
    obtain ⟨joined, plain⟩ := sourceSplit split
    have parts := moduleSplit (plain module rfl)
    have kept := moduleParts (plain module rfl)
    generalize splitModule module = pieces at ok parts kept
    obtain ⟨parent, leaf⟩ := pieces
    cases ok
    rw [fromText, oneName, aliasText leaf some]
    exact .relative (Nat.pos_of_ne_zero below) kept.1 kept.2 (by rw [parts, joined])

theorem takingText (source : String) (names : List String) :
    TakingLine source names (importNames source names).text := by
  have plain : Source.names ((Text.sorted names).map (⟨·, none⟩)) = Text.join ", " (Text.sorted names) := by
    rw [Source.names, List.map_map]
    exact congrArg (Text.join ", ") (List.map_id _)
  have text : (importNames source names).text =
      "from " ++ source ++ " import " ++ Text.join ", " (Text.sorted names) := by
    have module : sourceText (splitSource source).1 (splitSource source).2 = source := (sourceSplit rfl).1
    rw [importNames, fromText, plain, module]
  rw [text]
  exact .taken (List.mergeSort_perm _ _) (Text.sortedOn id names)

end Lines

section Parts

variable {statements : List Statement} {s t : Statement} {nodes : List Stmt}

theorem givenNamed {name : Option String} {bound : String} (some : given name = some bound) : bound ≠ "" := by
  have held := (Option.filter_eq_some_iff.mp some).2
  simpa using held

theorem valueText (ok : s.imports = .ok nodes) (alone : given s.namespaceAlias = none)
    (module : given s.default ≠ none → ∃ c ∈ s.source.toList, c ≠ '.') :
    ValueLines s (nodes.map Stmt.text) := by
  have named : NamedLines s.source s.named (s.valueNodes.map Stmt.text) := by
    unfold valueNodes
    split
    · rename_i none
      rw [List.isEmpty_iff.mp none]
      exact .none
    · rename_i some
      exact .taken (by simpa using some) (takingText s.source s.named)
  cases importsImported ok with
  | spaced space => simp [space] at alone
  | whole _ default binds =>
    have line := bindingText binds (givenNamed default) (module (by simp [default]))
    exact .lines (.bound default line) named
  | named _ default => exact .lines (.none default) named

theorem guardedNone : (guarded (present statements)).isEmpty = true ↔ ∀ t ∈ statements, t.typeOnly = [] := by
  rw [List.isEmpty_iff, List.eq_nil_iff_forall_not_mem]
  simp only [guardedMember]
  constructor
  · intro none t member
    by_contra some
    exact none _ ⟨t, member, some, rfl⟩
  · rintro none _ ⟨s, member, some, _⟩
    exact some (none s member)

theorem guardedImports (member : t ∈ guarded (present statements)) :
    t.imports = .ok [importNames t.source t.named] := by
  obtain ⟨s, _, some, rfl⟩ := guardedMember.mp member
  have held : s.typeOnly.isEmpty = false := by simpa using some
  simp [imports, given, held, bind, Except.bind]

theorem shownDistinct (distinct : (statements.map (·.source)).Nodup) :
    ((shown statements).map (·.source)).Nodup := by
  have kept := presentDistinct distinct
  unfold shown
  split
  · exact kept
  · rcases guardPlaced (present statements) with ⟨none, added⟩ | ⟨before, s, after, whole, _, replaced⟩
    · rw [added, List.map_append, List.nodup_append]
      refine ⟨kept, List.nodup_singleton _, fun source listed other last same => ?_⟩
      obtain ⟨t, member, rfl⟩ := List.mem_map.mp listed
      rw [List.map_singleton, List.mem_singleton, (guardKept _).1] at last
      exact none t member (same.trans last)
    · rw [whole] at kept
      simpa only [replaced, List.map_append, List.map_cons, (guardKept s).1] using kept

theorem shownMember (distinct : (statements.map (·.source)).Nodup) :
    s ∈ shown statements ↔ Shown statements s := by
  unfold shown
  split
  · rename_i none
    have plain := guardedNone.mp none
    rw [presentMember]
    constructor
    · rintro ⟨member, held⟩
      exact .kept member held (.inr plain)
    · intro shown
      cases shown with
      | kept member held => exact ⟨member, held⟩
      | extended _ _ _ hidden =>
        obtain ⟨t, member, some⟩ := hidden
        exact absurd (plain t member) some
      | created _ hidden =>
        obtain ⟨t, member, some⟩ := hidden
        exact absurd (plain t member) some
  · rename_i some
    have hidden : ∃ t ∈ statements, t.typeOnly ≠ [] := by
      by_contra none
      exact some (guardedNone.mpr fun t member => by_contra fun held => none ⟨t, member, held⟩)
    rw [guardMember (presentDistinct distinct)]
    constructor
    · rintro (⟨listed, other⟩ | ⟨t, listed, typing, rfl⟩ | ⟨none, rfl⟩)
      · obtain ⟨member, held⟩ := presentMember.mp listed
        exact .kept member held (.inl other)
      · obtain ⟨member, held⟩ := presentMember.mp listed
        exact .extended member held typing hidden
      · refine .created (fun t member typing => ?_) hidden
        by_contra held
        exact none t (presentMember.mpr ⟨member, by simpa using held⟩) typing
    · intro shown
      cases shown with
      | kept member held other =>
        rcases other with other | plain
        · exact .inl ⟨presentMember.mpr ⟨member, held⟩, other⟩
        · obtain ⟨t, listed, some⟩ := hidden
          exact absurd (plain t listed) some
      | extended member held typing =>
        exact .inr (.inl ⟨_, presentMember.mpr ⟨member, held⟩, typing, rfl⟩)
      | created absent =>
        refine .inr (.inr ⟨fun t listed typing => ?_, rfl⟩)
        obtain ⟨member, held⟩ := presentMember.mp listed
        simp [absent t member typing] at held

end Parts

section Order

variable {statements : List Statement}

theorem sourcesSorted (distinct : (statements.map (·.source)).Nodup) :
    (sortBySource statements).Pairwise (fun s t => s.source < t.source) :=
  Text.sortedApart distinct

theorem relativeDot (s : Statement) : s.isRelative = true ↔ s.source.toList.head? = some '.' := by
  rw [isRelative, Text.startsWith, List.isPrefixOf_iff_prefix]
  constructor
  · rintro ⟨rest, text⟩
    simp [← text]
  · intro dot
    obtain ⟨rest, text⟩ := List.head?_eq_some_iff.mp dot
    exact ⟨rest, text.symm⟩

theorem sortedRanked {n : Nat} (distinct : (statements.map (·.source)).Nodup)
    (ranked : ∀ s ∈ statements, rank s.source = n) :
    (sortBySource statements).Pairwise Before ∧ ∀ s ∈ sortBySource statements, rank s.source = n := by
  have each : ∀ s ∈ sortBySource statements, rank s.source = n := fun s member =>
    ranked s (List.mem_mergeSort.mp member)
  refine ⟨(sourcesSorted distinct).imp_of_mem fun first second less => ?_, each⟩
  exact .inr ⟨(each _ first).trans (each _ second).symm, less⟩

theorem arrangeOrdered (distinct : (statements.map (·.source)).Nodup) :
    (arrange statements).Pairwise Before := by
  have kept (p : Statement → Bool) : ((statements.filter p).map (·.source)).Nodup :=
    distinct.sublist (List.filter_sublist.map _)
  have future : ∀ s ∈ statements.filter (fun s => s.source = futureModule),
      s.source = futureModule ∧ rank s.source = 0 := by
    intro s member
    have same : s.source = futureModule := by simpa using (List.mem_filter.mp member).2
    exact ⟨same, by simp [rank, same]⟩
  obtain ⟨absolute, second⟩ := sortedRanked (n := 1)
    (kept (fun s => s.source ≠ futureModule ∧ ¬ s.isRelative)) fun s member => by
      have held := (List.mem_filter.mp member).2
      simp only [decide_eq_true_eq, relativeDot] at held
      simp [rank, held]
  obtain ⟨relative, third⟩ := sortedRanked (n := 2) (kept isRelative) fun s member => by
    have dot := (relativeDot s).mp (List.mem_filter.mp member).2
    have other : s.source ≠ futureModule := by
      intro same
      rw [same] at dot
      exact absurd dot (by decide)
    simp [rank, other, dot]
  rw [arrange, List.pairwise_append, List.pairwise_append]
  refine ⟨⟨?_, absolute, ?_⟩, relative, ?_⟩
  · refine (List.pairwise_map.mp (kept _)).imp_of_mem fun first other apart => ?_
    exact absurd ((future _ first).1.trans (future _ other).1.symm) apart
  · intro s first t member
    exact .inl (by rw [(future s first).2, second t member]; decide)
  · intro s first t member
    rw [Before, third t member]
    rcases List.mem_append.mp first with early | middle
    · exact .inl (by rw [(future s early).2]; decide)
    · exact .inl (by rw [second s middle]; decide)

end Order

section Text

theorem guardText (types : List Statement) :
    (Stmt.branch (.name guardName) (types.map (fun t => importNames t.source t.named)) []).text =
      Text.join "\n" ("if TYPE_CHECKING:" ::
        types.map (fun t => "    " ++ (importNames t.source t.named).text)) := by
  have inside : Stmt.bodyLines 1 (types.map (fun t => importNames t.source t.named)) =
      types.map (fun t => "    " ++ (importNames t.source t.named).text) := by
    induction types with
    | nil => simp [Stmt.bodyLines]
    | cons t rest ih =>
      have line : Stmt.lines 1 (importNames t.source t.named) =
          ["    " ++ (importNames t.source t.named).text] := by
        simp [importNames, Stmt.text, Stmt.lines, indented, Text.join]
      rw [List.map_cons, Stmt.bodyLines, line, ih]
      rfl
  rw [Stmt.text, Stmt.lines, inside, Stmt.elseLines, List.append_nil]
  rfl

theorem joinLast (lines : List String) {last : List String} (some : last ≠ []) :
    Text.join "\n" (lines ++ [Text.join "\n" last]) = Text.join "\n" (lines ++ last) := by
  cases lines with
  | nil => simp [Text.join]
  | cons first rest =>
    have held : first :: rest ≠ [] := List.cons_ne_nil _ _
    rw [Text.join, String.intercalate_append_of_ne_nil held (List.cons_ne_nil _ _),
      String.intercalate_singleton, Text.join, Text.join, String.intercalate_append_of_ne_nil held some]

end Text

section Block

variable {statements : List Statement} {s : Statement}

theorem shownPlain (plain : Plain statements) (shown : Shown statements s) :
    given s.namespaceAlias = none ∧ (given s.default ≠ none → ∃ c ∈ s.source.toList, c ≠ '.') := by
  cases shown with
  | kept member => exact ⟨plain.alone s member, plain.module s member⟩
  | created => exact ⟨rfl, fun whole => absurd rfl whole⟩
  | @extended s member =>
    obtain ⟨source, default, space, _⟩ := coversGuard s
    rw [source, default, space]
    exact ⟨plain.alone s member, plain.module s member⟩

theorem shownWritten (plain : Plain statements) : ∃ parts, List.Forall₂
    (fun s part => s.imports = .ok part ∧ ValueLines s (part.map Stmt.text))
    (arrange (shown statements)) parts := by
  refine Outcome.eachFound fun s member => ?_
  obtain ⟨alone, module⟩ := shownPlain plain
    ((shownMember plain.distinct).mp (arrangeMember.mp member))
  have named : ¬s.Unnamed := by
    rintro ⟨empty, space | whole⟩
    · exact space alone
    · obtain ⟨c, inside, _⟩ := module whole
      simp [empty] at inside
  obtain ⟨part, imported⟩ := importsWritten.mpr named
  exact ⟨part, imported, valueText imported alone module⟩

def inside (statements : List Statement) : List Statement :=
  sortBySource (guarded (present statements))

theorem insideMember {t : Statement} : t ∈ inside statements ↔
    ∃ s ∈ statements, s.typeOnly ≠ [] ∧ t = { source := s.source, named := s.typeOnly } := by
  rw [inside, sortBySource, List.mem_mergeSort, guardedMember]

theorem insideSorted (distinct : (statements.map (·.source)).Nodup) :
    (inside statements).Pairwise (fun s t => s.source < t.source) := by
  refine sourcesSorted ?_
  rw [guarded, List.map_map]
  exact (presentDistinct distinct).sublist (List.filter_sublist.map _)

theorem insideNone : (inside statements).isEmpty = (guarded (present statements)).isEmpty :=
  (List.mergeSort_perm _ _).isEmpty_eq

theorem insideImported : List.Forall₂ (fun s part => s.imports = .ok part) (inside statements)
    ((inside statements).map (fun t => [importNames t.source t.named])) := by
  refine List.forall₂_map_right_iff.mpr (List.forall₂_same.mpr fun t member => ?_)
  exact guardedImports (List.mem_mergeSort.mp member)

theorem blockLines {parts : List (List Stmt)}
    (written : List.Forall₂ (fun s part => s.imports = .ok part) (arrange (shown statements)) parts) :
    render statements = .ok (Text.join "\n" ((parts.map (·.map Stmt.text)).flatten ++
      if (inside statements).isEmpty then [] else "if TYPE_CHECKING:" ::
        (inside statements).map (fun t => "    " ++ (importNames t.source t.named).text))) := by
  have nodes := blockBlocked.mpr ⟨parts, _, written, insideImported, rfl⟩
  have flat : ((inside statements).map (fun t => [importNames t.source t.named])).flatten =
      (inside statements).map (fun t => importNames t.source t.named) := by
    rw [← List.flatMap_def, ← List.map_eq_flatMap]
  rw [render, nodes, ← insideNone, flat]
  refine congrArg Except.ok ?_
  rw [List.map_append, List.map_flatten]
  split
  · rw [List.map_nil]
  · rw [List.map_singleton, guardText, joinLast _ (List.cons_ne_nil _ _)]

end Block

theorem importsRegrouped {statements : List Statement} (plain : Plain statements) :
    ∃ r : Regrouping statements, render statements = .ok (Text.join "\n" r.lines) := by
  obtain ⟨parts, each⟩ := shownWritten plain
  refine ⟨{ values := arrange (shown statements)
            types := (inside statements).map (fun t => (t.source, t.named))
            plain := parts.map (·.map Stmt.text)
            inside := (inside statements).map (fun t => (importNames t.source t.named).text)
            shown := fun s => arrangeMember.trans (shownMember plain.distinct)
            ordered := arrangeOrdered (shownDistinct plain.distinct)
            hidden := fun source names => ?_
            sorted := List.pairwise_map.mpr (insideSorted plain.distinct)
            written := List.forall₂_map_right_iff.mpr (each.imp fun _ _ both => both.2)
            guarded := ?_ }, ?_⟩
  · simp only [List.mem_map, insideMember, Prod.mk.injEq]
    constructor
    · rintro ⟨_, ⟨s, member, some, rfl⟩, rfl, rfl⟩
      exact ⟨s, member, rfl, rfl, some⟩
    · rintro ⟨s, member, rfl, rfl, some⟩
      exact ⟨_, ⟨s, member, some, rfl⟩, rfl, rfl⟩
  · refine List.forall₂_map_left_iff.mpr (List.forall₂_map_right_iff.mpr (List.forall₂_same.mpr ?_))
    exact fun t _ => takingText t.source t.named
  · rw [blockLines (each.imp fun _ _ both => both.1), Regrouping.lines, List.isEmpty_map, List.map_map]
    rfl

namespace Sample

def mixed : List Statement :=
  [{ source := ".user", named := ["find"], default := some "users" },
    { source := "os", types := ["PathLike"], default := some "os" },
    { source := "__future__", named := ["annotations"] }]

def mixedText : String :=
  "from __future__ import annotations\nimport os\nfrom typing import TYPE_CHECKING\n" ++
    "from . import user as users\nfrom .user import find\n" ++
    "if TYPE_CHECKING:\n    from os import PathLike"

theorem mixedPlain : Plain mixed := by
  refine ⟨by decide, by decide, fun s member _ => ?_⟩
  simp only [mixed, List.mem_cons, List.not_mem_nil, or_false] at member
  rcases member with rfl | rfl | rfl
  · exact ⟨'u', by decide, by decide⟩
  · exact ⟨'o', by decide, by decide⟩
  · exact ⟨'_', by decide, by decide⟩

theorem mixedRendered : render mixed = .ok mixedText := by
  have values : shown mixed = mixed ++ [{ source := "typing", named := [guardName] }] := by decide
  have types : inside mixed = [{ source := "os", named := ["PathLike"] }] := by
    have hidden : guarded (present mixed) = [{ source := "os", named := ["PathLike"] }] := by decide
    rw [inside, hidden, sortBySource, List.mergeSort_singleton]
  have sorted : arrange (shown mixed) =
      [{ source := "__future__", named := ["annotations"] },
        { source := "os", types := ["PathLike"], default := some "os" },
        { source := "typing", named := [guardName] },
        { source := ".user", named := ["find"], default := some "users" }] := by
    rw [values]
    cbv
  have written : List.Forall₂ (fun s part => s.imports = .ok part) (arrange (shown mixed))
      [[importNames "__future__" ["annotations"]], [.importModules [⟨"os", none⟩]],
        [importNames "typing" [guardName]],
        [.importFrom 1 none [⟨"user", some "users"⟩], importNames ".user" ["find"]]] := by
    rw [sorted]
    exact .cons rfl (.cons rfl (.cons rfl (.cons rfl .nil)))
  rw [blockLines written, types]
  exact congrArg Except.ok (by decide +kernel)

theorem mixedRegrouped : Plain mixed ∧
    ∃ r : Regrouping mixed, Text.join "\n" r.lines = mixedText := by
  obtain ⟨r, rendered⟩ := importsRegrouped mixedPlain
  rw [mixedRendered, Except.ok.injEq] at rendered
  exact ⟨mixedPlain, r, rendered.symm⟩

end Sample
end Codegen.Statement
