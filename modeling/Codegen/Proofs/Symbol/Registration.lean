import Codegen.Emission.Builder
import Codegen.Proofs.Table

/-! Registering symbols one after the other. All of them are accepted if those of one key are equal; then
the registry answers each key by its registration, in whatever order the registrations came. -/
namespace Codegen

def Agree (registrations : List Registration) : Prop :=
  ∀ r ∈ registrations, ∀ q ∈ registrations, r.symbol.key = q.symbol.key → r = q

theorem agreeFewer {few many : List Registration} (within : few ⊆ many) (agree : Agree many) : Agree few :=
  fun r first q second => agree r (within first) q (within second)

namespace SymbolRegistry

def Holds (registry : SymbolRegistry) (registrations : List Registration) : Prop :=
  ∀ key r, registry.symbols.find? key = some r ↔ r ∈ registrations ∧ r.symbol.key = key

section Register

variable {registry next : SymbolRegistry} {known : List Registration} {s : Symbol} {plugin : String}

theorem holdsNone : Holds {} [] := by
  intro key r
  exact iff_of_false (fun found => by cases found) (fun held => by cases held.1)

theorem holdsAgree (holds : Holds registry known) : Agree known := by
  intro r first q second same
  have left := (holds q.symbol.key r).mpr ⟨first, same⟩
  rw [(holds q.symbol.key q).mpr ⟨second, rfl⟩] at left
  exact (Option.some.inj left).symm

theorem registerOk : registry.register s plugin = .ok next ↔
    (registry.symbols.find? s.normalized.key = none ∧
      next = { registry with symbols := registry.symbols.put s.normalized.key ⟨s.normalized, plugin⟩ }) ∨
    (registry.symbols.find? s.normalized.key = some ⟨s.normalized, plugin⟩ ∧ next = registry) := by
  simp only [register]
  cases present : registry.symbols.find? s.normalized.key with
  | none => simp [eq_comm]
  | some old => by_cases same : old = ⟨s.normalized, plugin⟩ <;> simp [same, eq_comm]

theorem registerHolds (holds : Holds registry known) (ok : registry.register s plugin = .ok next) :
    Holds next (known ++ [⟨s.normalized, plugin⟩]) := by
  intro key r
  rw [List.mem_append, List.mem_singleton]
  rcases registerOk.mp ok with ⟨absent, rfl⟩ | ⟨present, rfl⟩
  · have fresh : ¬(r ∈ known ∧ r.symbol.key = s.normalized.key) := by
      rw [← holds, absent]
      exact Option.some_ne_none r ∘ Eq.symm
    rw [Table.findPut]
    split
    · rename_i same
      grind
    · rename_i other
      rw [holds]
      grind
  · have member := ((holds _ _).mp present).1
    rw [holds]
    grind

theorem registerAccepted (holds : Holds registry known)
    (agree : Agree (known ++ [⟨s.normalized, plugin⟩])) :
    ∃ next, registry.register s plugin = .ok next := by
  cases present : registry.symbols.find? s.normalized.key with
  | none => exact ⟨_, registerOk.mpr (.inl ⟨present, rfl⟩)⟩
  | some old =>
    obtain ⟨member, same⟩ := (holds _ _).mp present
    have equal := agree old (by simp [member]) ⟨s.normalized, plugin⟩ (by simp) same
    exact ⟨registry, registerOk.mpr (.inr ⟨equal ▸ present, rfl⟩)⟩

end Register

end SymbolRegistry

namespace Builder

def registration (file plugin : String) (e : Export) : Registration :=
  ⟨(e.symbol file).normalized, plugin⟩

section Exports

open SymbolRegistry (Holds registerHolds registerAccepted holdsAgree)

variable {file plugin : String} {exports : List Export} {symbols next : SymbolRegistry}
  {known : List Registration}

theorem exportsHold (holds : Holds symbols known)
    (ok : registerExports file plugin exports symbols = (next, .ok ())) :
    Holds next (known ++ exports.map (registration file plugin)) := by
  induction exports generalizing symbols known with
  | nil =>
    cases ok
    simpa using holds
  | cons e rest ih =>
    simp only [registerExports] at ok
    split at ok
    · rename_i registered accepted
      have later := ih (registerHolds holds accepted) ok
      rwa [List.append_assoc, List.singleton_append] at later
    · cases ok

theorem exportsAccepted (holds : Holds symbols known)
    (agree : Agree (known ++ exports.map (registration file plugin))) :
    ∃ next, registerExports file plugin exports symbols = (next, .ok ()) := by
  induction exports generalizing symbols known with
  | nil => exact ⟨symbols, rfl⟩
  | cons e rest ih =>
    have split : known ++ (e :: rest).map (registration file plugin) =
        (known ++ [registration file plugin e]) ++ rest.map (registration file plugin) := by simp
    rw [split] at agree
    obtain ⟨registered, accepted⟩ :=
      registerAccepted holds (agreeFewer (List.subset_append_left ..) agree)
    obtain ⟨next, ok⟩ := ih (registerHolds holds accepted) agree
    exact ⟨next, by simp only [registerExports, accepted, ok]⟩

end Exports
end Builder
end Codegen
