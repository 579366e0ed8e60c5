import Codegen.Proofs.Path
import Codegen.Proofs.Symbol.History

/-! What a file leaves behind whose emission fails. The buffer is as it was. A misuse is found before
anything changes; an export that clashes is found only when those in front of it are registered, and they
stay. Since no registration is taken back, all that was resolved before is resolved as before. -/
namespace Codegen

namespace SymbolRegistry

open Registration (firsts kept)

def fresh (registry : SymbolRegistry) (registrations : List Registration) : List Registration :=
  (firsts registrations).filter (·.key ∉ registry.symbols.keys)

structure Extended (registry after : SymbolRegistry) (registrations : List Registration) : Prop where
  entries : after.symbols.entries = registry.symbols.entries ++ (registry.fresh registrations).map entryOf
  held : ∀ r ∈ registrations, after.symbols.find? r.key = some r
  methods : after.methods = registry.methods

section Register

variable {registry next after : SymbolRegistry} {r : Registration} {rest : List Registration} {s : Symbol}
  {plugin : String}

theorem freshKnown (known : r.key ∈ registry.symbols.keys) :
    registry.fresh (r :: rest) = registry.fresh rest := by
  have same : r.kept.key = r.key := rfl
  rw [fresh, firsts, List.filter_cons, same, if_neg (by simpa using known), List.filter_filter, fresh]
  refine List.filter_congr fun q _ => ?_
  by_cases equal : q.key = r.key
  · simp [equal, known]
  · simp [equal]

theorem freshFree (free : r.key ∉ registry.symbols.keys)
    (entries : next.symbols.entries = registry.symbols.entries ++ [entryOf r]) :
    registry.fresh (r :: rest) = r.kept :: next.fresh rest := by
  have same : r.kept.key = r.key := rfl
  have keys : next.symbols.keys = registry.symbols.keys ++ [r.key] := by
    simp only [Table.keys, entries, List.map_append, List.map_singleton, entryOf]
  rw [fresh, firsts, List.filter_cons, same, if_pos (by simpa using free), List.filter_filter, fresh]
  congr 1
  refine List.filter_congr fun q _ => ?_
  simp [keys]

theorem freshNone {registrations : List Registration} :
    registry.fresh registrations = [] ↔ ∀ r ∈ registrations, r.key ∈ registry.symbols.keys := by
  constructor
  · intro none r member
    by_contra free
    obtain ⟨q, found⟩ : ∃ q, registrations.find? (·.key = r.key) = some q :=
      Option.isSome_iff_exists.mp (List.find?_isSome.mpr ⟨r, member, by simp⟩)
    have listed := firstsFind registrations r.key
    rw [found, Option.map_some] at listed
    have same : q.kept.key = r.key := by simpa using List.find?_some listed
    refine List.filter_eq_nil_iff.mp none q.kept (List.mem_of_find?_eq_some listed) ?_
    simpa [same] using free
  · intro known
    induction registrations with
    | nil => rfl
    | cons r rest ih =>
      rw [freshKnown (known r List.mem_cons_self)]
      exact ih fun q member => known q (List.mem_cons_of_mem _ member)

theorem extendedSame {registrations : List Registration}
    (extended : registry.Extended after registrations) :
    after = registry ↔ ∀ r ∈ registrations, r.key ∈ registry.symbols.keys := by
  obtain ⟨entries, _, methods⟩ := extended
  rw [← freshNone]
  constructor
  · rintro rfl
    simpa using entries
  · intro none
    rw [none, List.map_nil, List.append_nil] at entries
    obtain ⟨symbols, _⟩ := after
    obtain ⟨before, _⟩ := registry
    cases symbols
    cases before
    cases entries
    cases methods
    rfl

theorem extendedFind (entries : after.symbols.entries =
    registry.symbols.entries ++ (registry.fresh rest).map entryOf) (key : String) :
    after.symbols.find? key =
      (registry.symbols.find? key).or ((rest.find? (·.key = key)).map kept) := by
  rw [Table.find?, entries, List.find?_append, Option.map_or, ← Table.find?, ← firstsFind]
  cases known : registry.symbols.find? key with
  | some held => rfl
  | none =>
    have free := Table.findAbsent.mp known
    rw [Option.none_or, Option.none_or, List.find?_map, Option.map_map, fresh, List.find?_filter]
    have passed : (fun r : Registration => decide (decide (r.key ∉ registry.symbols.keys) = true ∧
        ((fun entry : String × Registration => decide (entry.1 = key)) ∘ entryOf) r = true)) =
        fun r => decide (r.key = key) := by
      funext r
      by_cases same : r.key = key <;> simp [entryOf, same, free]
    rw [passed]
    exact Option.map_id'

theorem extendedNone (registry : SymbolRegistry) : registry.Extended registry [] :=
  ⟨by simp [fresh, firsts], by simp, rfl⟩

theorem extendedNext (ok : registry.register s plugin = .ok next) (extended : next.Extended after rest) :
    registry.Extended after (⟨s.normalized, plugin⟩ :: rest) := by
  obtain ⟨entries, held, methods⟩ := extended
  let r : Registration := ⟨s.normalized, plugin⟩
  have normal : r.kept = r := by simp [r, kept, Symbol.normalized, Path.normalizeTwice]
  have first : next.symbols.find? r.key = some r → ∀ q ∈ r :: rest, after.symbols.find? q.key = some q := by
    intro found q member
    rcases List.mem_cons.mp member with rfl | inside
    · rw [extendedFind entries, found, Option.some_or]
    · exact held q inside
  rcases registerOk.mp ok with ⟨absent, rfl⟩ | ⟨present, rfl⟩
  · have free : r.key ∉ registry.symbols.keys := Table.findAbsent.mp absent
    have added : (registry.symbols.put r.key r).entries = registry.symbols.entries ++ [entryOf r] :=
      Table.entriesPutFresh free r
    let grown : SymbolRegistry := { registry with symbols := registry.symbols.put r.key r }
    have brought : registry.fresh (r :: rest) = r.kept :: grown.fresh rest := freshFree free added
    refine ⟨?_, first ?_, methods⟩
    · rw [brought, normal, List.map_cons, List.append_cons, ← added]
      exact entries
    · exact (Table.findPut registry.symbols r.key r.key r).trans (if_pos rfl)
  · have known : r.key ∈ next.symbols.keys := Table.keyFound.mpr ⟨_, present⟩
    refine ⟨?_, first present, methods⟩
    rw [freshKnown known]
    exact entries

theorem extendedResolve {registrations : List Registration}
    (extended : registry.Extended after registrations) (ref : SymbolRef) :
    after.resolve ref = some s ↔ registry.resolve ref = some s ∨
      ∃ r ∈ registrations, r.symbol = s ∧ s.key = ref.key := by
  have found := extendedFind extended.entries ref.key
  simp only [resolve, Option.map_eq_some_iff]
  constructor
  · rintro ⟨q, held, rfl⟩
    rcases Option.or_eq_some_iff.mp (found ▸ held) with before | ⟨_, brought⟩
    · exact .inl ⟨q, before, rfl⟩
    · obtain ⟨r, listed, rfl⟩ := Option.map_eq_some_iff.mp brought
      have member := List.mem_of_find?_eq_some listed
      have key : r.key = ref.key := by simpa using List.find?_some listed
      have same := extended.held r member
      rw [key, held, Option.some.injEq] at same
      exact .inr ⟨r, member, by rw [same], key⟩
  · rintro (⟨q, before, rfl⟩ | ⟨r, listed, rfl, key⟩)
    · exact ⟨q, by rw [found, before, Option.some_or], rfl⟩
    · exact ⟨r, by rw [← key]; exact extended.held r listed, rfl⟩

theorem registerRefused {cause : Error} (refused : registry.register s plugin = .error cause) :
    ∃ holder, registry.symbols.find? s.normalized.key = some holder ∧ holder ≠ ⟨s.normalized, plugin⟩ ∧
      cause = .symbolConflict s.normalized.key [holder.plugin, plugin] (some s.normalized.file) := by
  simp only [register] at refused
  split at refused
  · cases refused
  · rename_i holder found
    split at refused
    · cases refused
    · rename_i other
      cases refused
      exact ⟨holder, found, other, rfl⟩

end Register
end SymbolRegistry

namespace Builder

open SymbolRegistry (Extended extendedNone extendedNext registerRefused)

section Exports

variable {file plugin : String} {exports : List Export} {symbols after : SymbolRegistry}

theorem exportsRefused {cause : Error}
    (refused : registerExports file plugin exports symbols = (after, .error cause)) :
    ∃ accepted clashing rest, exports = accepted ++ clashing :: rest ∧
      symbols.Extended after (accepted.map (registration file plugin)) ∧
      after.register (clashing.symbol file) plugin = .error cause := by
  induction exports generalizing symbols with
  | nil => cases refused
  | cons e rest ih =>
    simp only [registerExports] at refused
    split at refused
    · rename_i next accepted
      obtain ⟨before, clashing, later, rfl, extended, clash⟩ := ih refused
      exact ⟨e :: before, clashing, later, rfl, extendedNext accepted extended, clash⟩
    · rename_i clash
      cases refused
      exact ⟨[], e, rest, rfl, extendedNone _, clash⟩

end Exports

structure Clashed (b : Builder) (space after : Workspace) (cause : Error) (accepted : List Export)
    (clashing : Export) : Prop where
  holder : ∃ holder,
    after.symbols.symbols.find? (registration b.path b.plugin clashing).key = some holder ∧
      holder ≠ registration b.path b.plugin clashing ∧
      cause = .symbolConflict (registration b.path b.plugin clashing).key [holder.plugin, b.plugin]
        (some (registration b.path b.plugin clashing).symbol.file)
  extended : space.symbols.Extended after.symbols (accepted.map (registration b.path b.plugin))
  same : after = space ↔ ∀ e ∈ accepted, (registration b.path b.plugin e).key ∈ space.symbols.symbols.keys
  resolved : ∀ ref s, after.symbols.resolve ref = some s ↔ space.symbols.resolve ref = some s ∨
    ∃ e ∈ accepted, (registration b.path b.plugin e).symbol = s ∧ s.key = ref.key

structure Refused (b : Builder) (space after : Workspace) (cause : Error) : Prop where
  buffer : after.emissions = space.emissions
  cause : (∃ m, cause = .misuse m ∧ after = space) ∨
    ∃ accepted clashing rest, b.exports = accepted ++ clashing :: rest ∧
      b.Clashed space after cause accepted clashing

section Emission

variable {b done : Builder} {append : Bool} {space after : Workspace} {cause : Error}

theorem clashedAt {symbols : SymbolRegistry} {accepted : List Export} {clashing : Export}
    (extended : space.symbols.Extended symbols (accepted.map (registration b.path b.plugin)))
    (clash : symbols.register (clashing.symbol b.path) b.plugin = .error cause) :
    b.Clashed space { space with symbols := symbols } cause accepted clashing := by
  refine ⟨registerRefused clash, extended, ?_, fun ref s => ?_⟩
  · have whole : { space with symbols := symbols } = space ↔ symbols = space.symbols := by
      cases space
      simp
    rw [whole, SymbolRegistry.extendedSame extended, List.forall_mem_map]
  · simp only [SymbolRegistry.extendedResolve extended, List.mem_map, exists_exists_and_eq_and]

theorem emissionRefused (refused : b.emit append space = (done, after, .error cause)) :
    b.Refused space after cause := by
  unfold emit at refused
  split at refused
  · cases refused
    exact ⟨rfl, .inl ⟨_, rfl, rfl⟩⟩
  · split at refused
    · cases refused
      exact ⟨rfl, .inl ⟨_, rfl, rfl⟩⟩
    · dsimp only at refused
      split at refused
      · rename_i symbols e registered
        cases refused
        obtain ⟨accepted, clashing, rest, exports, extended, clash⟩ := exportsRefused registered
        exact ⟨rfl, .inr ⟨accepted, clashing, rest, exports, clashedAt extended clash⟩⟩
      · cases refused

end Emission

namespace Sample

def user : Symbol :=
  { name := "User", file := "a.py", capability := "types:User" }

def post : Symbol :=
  { name := "Post", file := "b.py", capability := "types:Post" }

def known : Workspace :=
  { symbols := { symbols := ⟨[("types:User", ⟨user, "A"⟩)], by decide⟩ } }

def posts : Builder :=
  { path := "b.py", plugin := "B", fragments := [.text "x = 1"]
    exports :=
      [{ name := "Post", capability := "types:Post" }, { name := "User", capability := "types:User" }] }

def left : Workspace :=
  { known with
    symbols :=
      { symbols := ⟨[("types:User", ⟨user, "A"⟩), ("types:Post", ⟨post, "B"⟩)], by decide⟩ } }

def clash : Error :=
  .symbolConflict "types:User" ["A", "B"] (some "b.py")

theorem postsEmitted : posts.emit false known = ({ posts with emitted := true }, left, .error clash) := by
  cbv

theorem postsRefused : posts.emit false known = ({ posts with emitted := true }, left, .error clash) ∧
    posts.Refused known left clash :=
  ⟨postsEmitted, emissionRefused postsEmitted⟩

theorem postStays : posts.emit false known = ({ posts with emitted := true }, left, .error clash) ∧
    left.emissions.allFiles = [] ∧ left.emissions.allDrafts = [] ∧
    known.symbols.resolve { capability := "types:Post" } = none ∧
    left.symbols.resolve { capability := "types:Post" } = some post ∧ post.file = posts.path :=
  ⟨postsEmitted, rfl, rfl, by decide +kernel, by decide +kernel, rfl⟩

end Sample
end Builder
end Codegen
