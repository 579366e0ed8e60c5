import Codegen.Proofs.Symbol.Registration

/-! The registries of symbols that the operations on them lead to. In each of them every symbol stands under
its own key, so that a reference finds exactly the symbol that has its key. -/
namespace Codegen.SymbolRegistry

def Keyed (registry : SymbolRegistry) : Prop :=
  ∀ key r, registry.symbols.find? key = some r → r.symbol.key = key

inductive Reached : SymbolRegistry → Prop where
  | empty : Reached {}
  | register {registry next : SymbolRegistry} {s plugin} (before : Reached registry)
      (ok : registry.register s plugin = .ok next) : Reached next
  | registerMethods {registry next : SymbolRegistry} {entity methods plugin importPath}
      (before : Reached registry)
      (ok : registry.registerMethods entity methods plugin importPath = .ok next) : Reached next

section Keyed

variable {registry next : SymbolRegistry} {s : Symbol} {plugin : String}

theorem keyedRegistered (keyed : Keyed registry) (ok : registry.register s plugin = .ok next) :
    Keyed next := by
  rcases registerOk.mp ok with ⟨_, rfl⟩ | ⟨_, rfl⟩
  · intro key r found
    rw [Table.findPut] at found
    split at found
    · rename_i same
      cases found
      exact same.symm
    · exact keyed key r found
  · exact keyed

theorem methodsSymbols {entity importPath : String} {methods : List Value}
    (ok : registry.registerMethods entity methods plugin importPath = .ok next) :
    next.symbols = registry.symbols := by
  simp only [registerMethods] at ok
  split at ok
  · cases ok
    rfl
  · split at ok
    · cases ok
    · cases ok
      rfl

theorem keyedReached (reached : Reached registry) : Keyed registry := by
  induction reached with
  | empty => exact fun key r found => by cases found
  | register _ ok ih => exact keyedRegistered ih ok
  | registerMethods _ ok ih =>
    unfold Keyed
    rw [methodsSymbols ok]
    exact ih

theorem allMember : s ∈ registry.all ↔ ∃ key r, registry.symbols.find? key = some r ∧ r.symbol = s := by
  simp only [all, List.mem_map, Table.valuesMember]
  grind

theorem resolveKeyed (keyed : Keyed registry) (ref : SymbolRef) (s : Symbol) :
    registry.resolve ref = some s ↔ s ∈ registry.all ∧ ref.key = s.key := by
  rw [resolve, Option.map_eq_some_iff, allMember]
  constructor
  · rintro ⟨r, found, rfl⟩
    exact ⟨⟨ref.key, r, found, rfl⟩, (keyed _ _ found).symm⟩
  · rintro ⟨⟨key, r, found, rfl⟩, same⟩
    have filed : key = ref.key := (keyed _ _ found).symm.trans same.symm
    exact ⟨r, filed ▸ found, rfl⟩

theorem resolveContains {ref : SymbolRef} (found : registry.resolve ref = some s) :
    registry.contains ref = true := by
  obtain ⟨r, held, _⟩ := Option.map_eq_some_iff.mp found
  exact Table.containsKey.mpr (Table.keyFound.mpr ⟨r, held⟩)

theorem registeredAll (ok : registry.register s plugin = .ok next) : s.normalized ∈ next.all := by
  rw [allMember]
  rcases registerOk.mp ok with ⟨_, rfl⟩ | ⟨held, rfl⟩
  · exact ⟨s.normalized.key, ⟨s.normalized, plugin⟩, by rw [Table.findPut, if_pos rfl], rfl⟩
  · exact ⟨_, _, held, rfl⟩

end Keyed

end Codegen.SymbolRegistry
