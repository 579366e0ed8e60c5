import Codegen.Proofs.Symbol.History

/-! Queries for the symbols below a key. A key lies below another one if it begins with all pieces of it, so
that a query never cuts a piece in two; colons at the end of what is asked for only end its last piece. -/
namespace Codegen.SymbolRegistry

open Registration (firsts kept)

inductive Change where
  | symbol (call : Registration)
  | methods (entity : String) (methods : List Value) (plugin importPath : String)
  | clear

def change (registry : SymbolRegistry) : Change → SymbolRegistry
  | .symbol call => (registry.submit call).1
  | .methods entity methods plugin importPath =>
    match registry.registerMethods entity methods plugin importPath with
    | .ok next => next
    | .error _ => registry
  | .clear => {}

def changeAll (changes : List Change) : SymbolRegistry :=
  changes.foldl change {}

def sinceClear (changes : List Change) : List Registration :=
  changes.foldl
    (fun calls change =>
      match change with
      | .symbol call => calls ++ [call]
      | .methods .. => calls
      | .clear => [])
    []

def segments (start : String) : List String :=
  Text.split ':' (Text.dropTrailing ':' start)

structure Queried (calls : List Registration) (registry : SymbolRegistry) (start : String) : Prop where
  listed : registry.query start =
    ((firsts calls).map (·.symbol)).filter (fun s => segments start <+: Text.split ':' s.key)
  stored : ∀ s, s ∈ registry.query start ↔ s ∈ registry.all ∧ segments start <+: Text.split ':' s.key
  once : (registry.query start).Nodup
  ascending : (registry.entities start).Pairwise (· < ·)
  named : ∀ entity, entity ∈ registry.entities start ↔
    entity ≠ "" ∧ ∃ s ∈ registry.query start, s.entity = entity
  narrowed : ∀ rest, registry.query (start ++ ":" ++ rest) ⊆ registry.query start

section Changes

variable {registry other : SymbolRegistry} {changes : List Change}

theorem submitAlike (same : registry.symbols = other.symbols) (call : Registration) :
    (registry.submit call).1.symbols = (other.submit call).1.symbols := by
  simp only [submit, register, same]
  cases other.symbols.find? call.symbol.normalized.key with
  | none => rfl
  | some present =>
    by_cases equal : present = ⟨call.symbol.normalized, call.plugin⟩
    · simpa only [if_pos equal] using same
    · simpa only [if_neg equal] using same

theorem changedSymbols (changes : List Change) :
    (changeAll changes).symbols = (submitAll (sinceClear changes)).symbols := by
  induction changes using List.reverseRecOn with
  | nil => rfl
  | append_singleton changes last ih =>
    have before : changeAll (changes ++ [last]) = (changeAll changes).change last := by
      rw [changeAll, List.foldl_append]
      rfl
    rw [before, sinceClear, List.foldl_append, ← sinceClear, List.foldl_cons, List.foldl_nil]
    cases last with
    | symbol call =>
      rw [submitAll, List.foldl_append]
      exact submitAlike ih call
    | methods entity methods plugin importPath =>
      simp only [change]
      split
      · rename_i ok
        rw [methodsSymbols ok, ih]
      · exact ih
    | clear => rfl

end Changes

section Segments

variable {start key : String}

/- The two tests on texts are one test on pieces: the key is the start, or goes on behind a colon. -/
theorem underSegments : under start key = true ↔ segments start <+: Text.split ':' key := by
  rw [segments, Text.splitPrefix, under, Bool.or_eq_true, decide_eq_true_eq, Text.startsAppend]

theorem segmentsLonger (start rest : String) : segments start <+: segments (start ++ ":" ++ rest) := by
  have trimmed : Text.dropTrailing ':' (start ++ ":" ++ rest) = _ :=
    Text.dropTrailingAppend ':' start rest
  rw [segments, segments, trimmed]
  split
  · exact List.prefix_rfl
  · rw [Text.splitAppend]
    exact (Text.splitTrailing ':' start).trans (List.prefix_append _ _)

end Segments

section Queries

variable {calls : List Registration} {registry : SymbolRegistry}

theorem queryListed (entries : registry.symbols.entries = (firsts calls).map entryOf) (start : String) :
    registry.query start =
      ((firsts calls).map (·.symbol)).filter (fun s => segments start <+: Text.split ':' s.key) := by
  have below : ∀ s : Symbol, under start s.key = decide (segments start <+: Text.split ':' s.key) := by
    intro s
    rw [Bool.eq_iff_iff, underSegments, decide_eq_true_eq]
  simp only [query, entries, List.filter_map, List.map_map, ← below]
  rfl

theorem firstsApart (entries : registry.symbols.entries = (firsts calls).map entryOf) :
    ((firsts calls).map (·.symbol)).Nodup := by
  have distinct := registry.symbols.distinct
  rw [entries, List.map_map] at distinct
  refine List.Nodup.of_map Symbol.key ?_
  rw [List.map_map]
  exact distinct

theorem entitiesAscending (registry : SymbolRegistry) (start : String) :
    (registry.entities start).Pairwise (· < ·) := by
  have distinct : ((Text.unique (((registry.query start).map (·.entity)).filter (· ≠ ""))).map id).Nodup := by
    rw [List.map_id]
    exact Text.extendDistinct List.nodup_nil _
  exact Text.sortedApart distinct

theorem entitiesMember (registry : SymbolRegistry) (start entity : String) :
    entity ∈ registry.entities start ↔ entity ≠ "" ∧ ∃ s ∈ registry.query start, s.entity = entity := by
  rw [entities, Text.sorted, List.mem_mergeSort, Text.unique, Text.memExtend, List.mem_filter, List.mem_map,
    decide_eq_true_eq, and_comm]
  exact or_iff_right List.not_mem_nil

end Queries

/-- Whatever happened to a registry, a query answers with what was first registered with each key since the
registry was last cleared, as far as it lies below what is asked for. -/
theorem changesQueried (changes : List Change) (start : String) :
    Queried (sinceClear changes) (changeAll changes) start := by
  have entries : (changeAll changes).symbols.entries = (firsts (sinceClear changes)).map entryOf := by
    rw [changedSymbols, submittedEntries]
  have stored (asked : String) (s : Symbol) : s ∈ (changeAll changes).query asked ↔
      s ∈ (changeAll changes).all ∧ segments asked <+: Text.split ':' s.key := by
    have all : (changeAll changes).all = (firsts (sinceClear changes)).map (·.symbol) := by
      rw [SymbolRegistry.all, Table.values, entries, List.map_map, List.map_map]
      rfl
    rw [queryListed entries, all, List.mem_filter, decide_eq_true_eq]
  exact
    { listed := queryListed entries start
      stored := stored start
      once := queryListed entries start ▸ (firstsApart entries).filter _
      ascending := entitiesAscending _ start
      named := entitiesMember _ start
      narrowed := fun rest s found => by
        obtain ⟨known, below⟩ := (stored _ s).mp found
        exact (stored start s).mpr ⟨known, (segmentsLonger start rest).trans below⟩ }

/- Colons at the end do not count, a start of a piece is no piece, and the piece before a colon may be empty. -/
example : under "queries:" "queries:User:findById" = true ∧ under "queries" "queriesExtra:User" = false ∧
    under ":" ":User" = true := by
  refine ⟨?_, ?_, ?_⟩ <;> cbv

end Codegen.SymbolRegistry
