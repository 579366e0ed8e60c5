import Codegen.Proofs.Symbol.Collision
import Codegen.Proofs.Symbol.Reached
import Codegen.Proofs.Text.Lines

/-! Registries after any history of registrations, accepted or refused. The first registration with a key
decides what stands under it; those that come later with the key find it there and change nothing. All
that the registry answers follows from the first registrations and their order. -/
namespace Codegen

def Registration.key (r : Registration) : String :=
  r.symbol.key

def Registration.kept (r : Registration) : Registration :=
  ⟨r.symbol.normalized, r.plugin⟩

def Registration.firsts : List Registration → List Registration
  | [] => []
  | r :: rest => r.kept :: (firsts rest).filter (·.key ≠ r.key)

namespace SymbolRegistry

open Registration (firsts kept)

def submit (registry : SymbolRegistry) (call : Registration) : SymbolRegistry × Except Error Unit :=
  match registry.register call.symbol call.plugin with
  | .ok next => (next, .ok ())
  | .error e => (registry, .error e)

def submitAll (calls : List Registration) : SymbolRegistry :=
  calls.foldl (fun registry call => (registry.submit call).1) {}

structure Remembers (calls : List Registration) (registry : SymbolRegistry) : Prop where
  first : ∀ key, registry.symbols.find? key = (calls.find? (·.key = key)).map kept
  keyed : ∀ key r, registry.symbols.find? key = some r → r.key = key
  accepted : ∀ call, (registry.submit call).2 = .ok () ↔
    registry.symbols.find? call.key = none ∨ registry.symbols.find? call.key = some call.kept
  refused : ∀ call e, (registry.submit call).2 = .error e → (registry.submit call).1 = registry ∧
    ∃ r, registry.symbols.find? call.key = some r ∧
      e = .symbolConflict call.key [r.plugin, call.plugin] (some call.kept.symbol.file)
  listed : registry.all = (firsts calls).map (·.symbol)
  resolved : ∀ ref s, registry.resolve ref = some s ↔ s ∈ registry.all ∧ ref.key = s.key
  spelled : ∀ s ∈ registry.all, registry.resolve ⟨s.capability, s.entity, s.shape⟩ = some s ∧
    registry.resolve ⟨s.key, "", none⟩ = some s
  attributed : ∀ r ∈ firsts calls, registry.pluginFor r.symbol = some r.plugin
  collided : ∀ c, c ∈ registry.collisions ↔
    (∃ r ∈ firsts calls, ∃ q ∈ firsts calls,
      placeOf r = (c.file, c.symbol) ∧ placeOf q = (c.file, c.symbol) ∧ r.plugin ≠ q.plugin) ∧
    c.plugins = pluginsAt (firsts calls) (c.file, c.symbol)
  once : (registry.collisions.map (fun c => (c.file, c.symbol))).Nodup

section Firsts

variable {calls : List Registration} {registry : SymbolRegistry}

theorem firstsSnoc (calls : List Registration) (r : Registration) :
    firsts (calls ++ [r]) = if r.key ∈ calls.map (·.key) then firsts calls else firsts calls ++ [r.kept] := by
  induction calls with
  | nil => rfl
  | cons first rest ih =>
    have same : r.kept.key = r.key := rfl
    rw [List.cons_append, firsts, firsts, ih, List.map_cons]
    by_cases known : r.key ∈ rest.map (·.key)
    · rw [if_pos known, if_pos (List.mem_cons_of_mem _ known)]
    · rw [if_neg known, List.filter_append]
      by_cases equal : r.key = first.key
      · rw [if_pos (by simp [equal])]
        simp [same, equal]
      · rw [if_neg (by rw [List.mem_cons, not_or]; exact ⟨equal, known⟩)]
        simp [same, equal]

theorem firstsFind (calls : List Registration) (key : String) :
    (firsts calls).find? (·.key = key) = (calls.find? (·.key = key)).map kept := by
  induction calls with
  | nil => rfl
  | cons r rest ih =>
    have same : r.kept.key = r.key := rfl
    rw [firsts, List.find?_cons, List.find?_cons, same]
    by_cases equal : r.key = key
    · simp [equal]
    · have passed : (fun q : Registration =>
          decide (decide (q.key ≠ r.key) = true ∧ decide (q.key = key) = true)) =
          fun q => decide (q.key = key) := by
        funext q
        by_cases found : q.key = key <;> simp [found, Ne.symm equal]
      rw [decide_eq_false equal, List.find?_filter, passed]
      exact ih

def entryOf (r : Registration) : String × Registration :=
  (r.key, r)

theorem entriesFind (entries : registry.symbols.entries = (firsts calls).map entryOf) (key : String) :
    registry.symbols.find? key = (calls.find? (·.key = key)).map kept := by
  rw [Table.find?, entries, List.find?_map, Option.map_map, ← firstsFind]
  exact Option.map_id'

theorem submitCases (registry : SymbolRegistry) (call : Registration) :
    (registry.symbols.find? call.key = none ∧ registry.submit call =
      ({ registry with symbols := registry.symbols.put call.key call.kept }, .ok ())) ∨
    (registry.symbols.find? call.key = some call.kept ∧ registry.submit call = (registry, .ok ())) ∨
    (∃ r, registry.symbols.find? call.key = some r ∧ r ≠ call.kept ∧ registry.submit call = (registry,
      .error (.symbolConflict call.key [r.plugin, call.plugin] (some call.kept.symbol.file)))) := by
  have same : call.symbol.normalized.key = call.key := rfl
  have whole : ⟨call.symbol.normalized, call.plugin⟩ = call.kept := rfl
  simp only [submit, register, same, whole]
  cases registry.symbols.find? call.key with
  | none => exact .inl ⟨rfl, rfl⟩
  | some present =>
    by_cases equal : present = call.kept
    · exact .inr (.inl ⟨congrArg some equal, by simp only [if_pos equal]⟩)
    · exact .inr (.inr ⟨present, rfl, equal, by simp only [if_neg equal]; rfl⟩)

theorem submitEntries (registry : SymbolRegistry) (call : Registration) :
    (registry.submit call).1.symbols.entries =
      if call.key ∈ registry.symbols.keys then registry.symbols.entries
      else registry.symbols.entries ++ [entryOf call.kept] := by
  rcases submitCases registry call with ⟨none, taken⟩ | ⟨found, taken⟩ | ⟨r, found, _, taken⟩
  · have fresh := Table.findAbsent.mp none
    rw [if_neg fresh, taken]
    exact Table.entriesPutFresh fresh _
  · rw [if_pos (Table.keyFound.mpr ⟨_, found⟩), taken]
  · rw [if_pos (Table.keyFound.mpr ⟨r, found⟩), taken]

theorem submittedEntries (calls : List Registration) :
    (submitAll calls).symbols.entries = (firsts calls).map entryOf := by
  induction calls using List.reverseRecOn with
  | nil => rfl
  | append_singleton calls call ih =>
    have known : call.key ∈ (submitAll calls).symbols.keys ↔ call.key ∈ calls.map (·.key) := by
      rw [← not_iff_not, ← Table.findAbsent, entriesFind ih]
      simp
    have last : submitAll (calls ++ [call]) = ((submitAll calls).submit call).1 := by
      rw [submitAll, List.foldl_append]
      rfl
    rw [last, submitEntries, firstsSnoc, ih]
    simp only [known]
    split
    · rfl
    · rw [List.map_append, List.map_singleton]

end Firsts

section Answers

variable {calls : List Registration} {registry : SymbolRegistry}

theorem submitOk (registry : SymbolRegistry) (call : Registration) : (registry.submit call).2 = .ok () ↔
    registry.symbols.find? call.key = none ∨ registry.symbols.find? call.key = some call.kept := by
  rcases submitCases registry call with ⟨none, taken⟩ | ⟨found, taken⟩ | ⟨r, found, other, taken⟩
  · simp [taken, none]
  · simp [taken, found]
  · simp [taken, found, other]

theorem submitRefused {call : Registration} {e : Error} (error : (registry.submit call).2 = .error e) :
    (registry.submit call).1 = registry ∧ ∃ r, registry.symbols.find? call.key = some r ∧
      e = .symbolConflict call.key [r.plugin, call.plugin] (some call.kept.symbol.file) := by
  rcases submitCases registry call with ⟨_, taken⟩ | ⟨_, taken⟩ | ⟨r, found, _, taken⟩
  · simp [taken] at error
  · simp [taken] at error
  · rw [taken] at error ⊢
    exact ⟨rfl, r, found, (Except.error.inj error).symm⟩

theorem keptKeyed (entries : registry.symbols.entries = (firsts calls).map entryOf) : Keyed registry := by
  intro key r found
  rw [Table.findPresent, entries] at found
  obtain ⟨first, _, same⟩ := List.mem_map.mp found
  cases same
  rfl

theorem keyBare (capability : String) : Symbol.keyOf capability "" none = capability := by
  have nothing : Symbol.givenSegments "" none = [] := rfl
  have segments : Symbol.keySegments capability "" none = Text.split ':' capability := by
    rw [Symbol.keySegments, nothing]
    split
    · rename_i cut
      exact cut.symm
    · rename_i kind carried cut
      simp [cut, Symbol.joinSegments]
  rw [Symbol.keyOf, segments]
  exact Text.joinSplit ':' capability

theorem collisionsMember (c : Collision) : c ∈ registry.collisions ↔
    1 < c.plugins.length ∧ c.plugins = pluginsAt registry.symbols.values (c.file, c.symbol) := by
  have found := definersFind registry.symbols.values (c.file, c.symbol)
  have same : registry.symbols.values.foldl addDefiner Table.empty = registry.definers := rfl
  rw [same] at found
  have listed : c ∈ registry.collisions ↔
      1 < c.plugins.length ∧ registry.definers.find? (c.file, c.symbol) = some c.plugins := by
    simp only [collisions, List.mem_map, List.mem_filter, decide_eq_true_eq, Table.findPresent]
    constructor
    · rintro ⟨entry, ⟨inside, several⟩, rfl⟩
      exact ⟨several, inside⟩
    · rintro ⟨several, inside⟩
      exact ⟨_, ⟨inside, several⟩, rfl⟩
  rw [listed, ← found]
  refine and_congr_right fun several => ?_
  cases registry.definers.find? (c.file, c.symbol) with
  | none => exact iff_of_false (by simp) fun empty => by simp [empty] at several
  | some plugins => simp [eq_comm]

theorem collisionsOnce (registry : SymbolRegistry) :
    (registry.collisions.map (fun c => (c.file, c.symbol))).Nodup := by
  rw [collisions, List.map_map]
  exact registry.definers.distinct.sublist (List.filter_sublist.map Prod.fst)

end Answers

theorem submittedRemembered (calls : List Registration) : Remembers calls (submitAll calls) := by
  have entries := submittedEntries calls
  have values : (submitAll calls).symbols.values = firsts calls := by
    rw [Table.values, entries, List.map_map]
    exact List.map_id' _
  have found : ∀ r ∈ firsts calls, (submitAll calls).symbols.find? r.key = some r := by
    intro r member
    rw [Table.findPresent, entries]
    exact List.mem_map.mpr ⟨r, member, rfl⟩
  exact
    { first := entriesFind entries
      keyed := keptKeyed entries
      accepted := submitOk (submitAll calls)
      refused := fun call e => submitRefused
      listed := by rw [all, values]
      resolved := resolveKeyed (keptKeyed entries)
      spelled := fun s member =>
        ⟨(resolveKeyed (keptKeyed entries) _ s).mpr ⟨member, rfl⟩,
          (resolveKeyed (keptKeyed entries) _ s).mpr ⟨member, keyBare s.key⟩⟩
      attributed := fun r member => by
        have same : r.symbol.key = r.key := rfl
        rw [pluginFor, same, found r member, Option.map_some]
      collided := fun c => by
        rw [collisionsMember, values, ← pluginsSeveral]
        exact ⟨fun both => ⟨both.2 ▸ both.1, both.2⟩, fun both => ⟨both.2.symm ▸ both.1, both.2⟩⟩
      once := collisionsOnce (submitAll calls) }

end SymbolRegistry
end Codegen
