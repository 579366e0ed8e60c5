import Codegen.Proofs.Plan.Matching
import Codegen.Proofs.Table

/-! Expansion of the queue of requests, which passes requests over or expands them. At any time, a key
that is wanted is planned already or still in the queue, and nothing is planned or queued that is not
wanted. When the queue is empty the planned keys are therefore exactly those that can be reached from
the first requests. -/
namespace Codegen.Plan

structure Kept (registry : Registry) (inv : List Asked → Table String Step → Prop) : Prop where
  skip : ∀ {asked rest steps}, inv (asked :: rest) steps → asked.request.key ∈ steps.keys →
    inv rest steps
  visit : ∀ {asked rest steps found}, inv (asked :: rest) steps → asked.request.key ∉ steps.keys →
    expandOne registry steps.keys asked = .ok found →
    inv (rest ++ found.asked) (steps.put asked.request.key found.step)

inductive Halted (registry : Registry) (inv : List Asked → Table String Step → Prop) :
    Except Error (Table String Step) → Prop where
  | complete {steps} (held : inv [] steps) : Halted registry inv (.ok steps)
  | failed {asked rest steps e} (held : inv (asked :: rest) steps)
      (refused : expandOne registry steps.keys asked = .error e) : Halted registry inv (.error e)

theorem expandHalted {registry : Registry} {inv : List Asked → Table String Step → Prop}
    (kept : Kept registry inv) (fuel : Nat) {queue : List Asked} {steps : Table String Step}
    {outcome : Except Error (Table String Step)} (held : inv queue steps)
    (ended : expand registry fuel queue steps = some outcome) : Halted registry inv outcome := by
  induction fuel generalizing queue steps with
  | zero =>
    cases queue with
    | nil =>
      cases ended
      exact .complete held
    | cons asked rest => cases ended
  | succ fuel ih =>
    cases queue with
    | nil =>
      cases ended
      exact .complete held
    | cons asked rest =>
      simp only [expand] at ended
      split at ended
      · rename_i known
        exact ih (kept.skip held (Table.containsKey.mp known)) ended
      · rename_i fresh
        split at ended
        · rename_i refused
          cases ended
          exact .failed held refused
        · rename_i found expanded
          exact ih (kept.visit held (fun known => fresh (Table.containsKey.mpr known)) expanded) ended

inductive Reached (steps : List Step) (roots : List String) : String → Prop where
  | root {key} (member : key ∈ roots) : Reached steps roots key
  | next {s key} (member : s ∈ steps) (wanted : Reached steps roots s.key)
      (needed : key ∈ s.predecessors) : Reached steps roots key

theorem reachedMore {steps more : List Step} {roots : List String} {key : String}
    (reached : Reached steps roots key) : Reached (steps ++ more) roots key := by
  induction reached with
  | root member => exact .root member
  | next member _ needed ih => exact .next (List.mem_append_left _ member) ih needed

theorem reachedSame {steps others : List Step} {roots : List String} {key : String}
    (same : ∀ s ∈ steps, s ∈ others) (reached : Reached steps roots key) :
    Reached others roots key := by
  induction reached with
  | root member => exact .root member
  | next member _ needed ih => exact .next (same _ member) ih needed

def Covered (queue : List Asked) (steps : Table String Step) (key : String) : Prop :=
  key ∈ steps.keys ∨ key ∈ queue.map (·.request.key)

structure Expanding (registry : Registry) (roots : List String) (queue : List Asked)
    (steps : Table String Step) : Prop where
  filed : ∀ key s, steps.find? key = some s → s.key = key ∧ Matched registry s
  planned : ∀ key ∈ steps.keys, Reached steps.values roots key
  queued : ∀ asked ∈ queue, Reached steps.values roots asked.request.key
  rooted : ∀ key ∈ roots, Covered queue steps key
  closed : ∀ s ∈ steps.values, ∀ key ∈ s.predecessors, Covered queue steps key

theorem expandingStart (registry : Registry) (queue : List Asked) :
    Expanding registry (queue.map (·.request.key)) queue Table.empty where
  filed key s found := by cases Table.findPresent.mp found
  planned key member := by cases member
  queued asked member := .root (List.mem_map.mpr ⟨asked, member, rfl⟩)
  rooted key member := .inr member
  closed s member := by cases member

theorem expandingSkip {registry : Registry} {roots : List String} {asked : Asked}
    {rest : List Asked} {steps : Table String Step}
    (inv : Expanding registry roots (asked :: rest) steps)
    (known : asked.request.key ∈ steps.keys) : Expanding registry roots rest steps := by
  have covered : ∀ key, Covered (asked :: rest) steps key → Covered rest steps key := by
    intro key covers
    rcases covers with old | queued
    · exact .inl old
    · rcases List.mem_cons.mp queued with rfl | later
      · exact .inl known
      · exact .inr later
  exact ⟨inv.filed, inv.planned, fun other member => inv.queued other (List.mem_cons_of_mem _ member),
    fun key member => covered key (inv.rooted key member),
    fun s member key needed => covered key (inv.closed s member key needed)⟩

theorem valuesPutFresh {steps : Table String Step} {key : String} (fresh : key ∉ steps.keys)
    (s : Step) : (steps.put key s).values = steps.values ++ [s] := by
  simp [Table.values, Table.entriesPutFresh fresh]

theorem expandingVisit {registry : Registry} {roots : List String} {asked : Asked}
    {rest : List Asked} {steps : Table String Step} {found : Expansion}
    (inv : Expanding registry roots (asked :: rest) steps)
    (fresh : asked.request.key ∉ steps.keys) (matched : Matched registry found.step)
    (request : found.step.request = asked.request)
    (needs : found.asked.map (·.request.key) = found.step.predecessors) :
    Expanding registry roots (rest ++ found.asked) (steps.put asked.request.key found.step) := by
  have key : found.step.key = asked.request.key := by rw [Step.key, request]
  have values := valuesPutFresh fresh found.step
  have head : Reached (steps.put asked.request.key found.step).values roots asked.request.key := by
    rw [values]
    exact reachedMore (inv.queued asked List.mem_cons_self)
  have covered : ∀ other, Covered (asked :: rest) steps other →
      Covered (rest ++ found.asked) (steps.put asked.request.key found.step) other := by
    intro other covers
    rcases covers with old | queued
    · exact .inl (Table.memKeysPut.mpr (.inl old))
    · rcases List.mem_cons.mp queued with rfl | later
      · exact .inl (Table.memKeysPut.mpr (.inr rfl))
      · exact .inr (by rw [List.map_append]; exact List.mem_append_left _ later)
  refine ⟨?_, ?_, ?_, ?_, ?_⟩
  · intro other s held
    rw [Table.findPut] at held
    split at held
    · rename_i same
      cases held
      exact ⟨key.trans same.symm, matched⟩
    · exact inv.filed other s held
  · intro other member
    rcases Table.memKeysPut.mp member with old | rfl
    · rw [values]
      exact reachedMore (inv.planned other old)
    · exact head
  · intro other member
    rcases List.mem_append.mp member with old | new
    · rw [values]
      exact reachedMore (inv.queued other (List.mem_cons_of_mem _ old))
    · have needed : other.request.key ∈ found.step.predecessors := by
        rw [← needs]; exact List.mem_map.mpr ⟨other, new, rfl⟩
      refine .next ?_ (key ▸ head) needed
      rw [values]
      exact List.mem_append_right _ List.mem_cons_self
  · exact fun other member => covered other (inv.rooted other member)
  · intro s member other needed
    rw [values] at member
    rcases List.mem_append.mp member with old | new
    · exact covered other (inv.closed s old other needed)
    · cases List.mem_singleton.mp new
      rw [← needs] at needed
      exact .inr (by rw [List.map_append]; exact List.mem_append_right _ needed)

theorem expandingKept (registry : Registry) (roots : List String) :
    Kept registry (Expanding registry roots) where
  skip := expandingSkip
  visit inv fresh expanded := by
    obtain ⟨matched, request, needs⟩ := expandedStep expanded
    exact expandingVisit inv fresh matched request needs

theorem expandedAll {registry : Registry} {roots : List String} (fuel : Nat) {queue : List Asked}
    {steps final : Table String Step} (inv : Expanding registry roots queue steps)
    (ok : expand registry fuel queue steps = some (.ok final)) :
    Expanding registry roots [] final := by
  cases expandHalted (expandingKept registry roots) fuel inv ok with
  | complete held => exact held

theorem expandLonger {registry : Registry} {fuel : Nat} {queue : List Asked} {steps : Table String Step}
    {outcome : Except Error (Table String Step)} (more : Nat)
    (ended : expand registry fuel queue steps = some outcome) :
    expand registry (fuel + more) queue steps = some outcome := by
  induction fuel generalizing queue steps with
  | zero =>
    cases queue with
    | nil => cases more <;> exact ended
    | cons asked rest => cases ended
  | succ fuel ih =>
    rw [Nat.succ_add]
    cases queue with
    | nil => exact ended
    | cons asked rest =>
      simp only [expand] at ended ⊢
      split at ended
      · rename_i known
        rw [if_pos known]
        exact ih ended
      · rename_i fresh
        rw [if_neg fresh]
        split at ended
        · exact ended
        · exact ih ended

theorem expandedKeys {registry : Registry} {roots : List String} {steps : Table String Step}
    (inv : Expanding registry roots [] steps) {key : String} :
    key ∈ steps.keys ↔ Reached steps.values roots key := by
  refine ⟨inv.planned key, fun reached => ?_⟩
  induction reached with
  | root member => exact (inv.rooted _ member).resolve_right (by simp)
  | next member _ needed _ => exact (inv.closed _ member _ needed).resolve_right (by simp)

end Codegen.Plan
