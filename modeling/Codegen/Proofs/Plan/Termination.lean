import Codegen.Proofs.Plan.Expansion
import Mathlib.Data.Finset.Card

/-! The end of the expansion. With each request that is expanded one key more has a step, so that an
expansion whose requests have finitely many keys ends. -/
namespace Codegen.Plan

variable {registry : Registry} {inv : List Asked → Table String Step → Prop}

theorem fewerLeft {keys : Finset String} {steps : Table String Step} {key : String} (s : Step)
    (bounded : key ∈ keys) (fresh : key ∉ steps.keys) :
    (keys.filter (· ∉ (steps.put key s).keys)).card < (keys.filter (· ∉ steps.keys)).card := by
  refine Finset.card_lt_card ⟨fun other member => ?_, fun all => ?_⟩
  · simp only [Finset.mem_filter, Table.memKeysPut, not_or] at member ⊢
    exact ⟨member.1, member.2.1⟩
  · have kept := all (Finset.mem_filter.mpr ⟨bounded, fresh⟩)
    simp [Table.memKeysPut] at kept

/- The keys without a step get fewer with each request that is expanded, and the queue gets shorter with
each that is passed over. -/
theorem expandEnds (kept : Kept registry inv) (keys : Finset String)
    (bounded : ∀ {asked rest steps}, inv (asked :: rest) steps → asked.request.key ∈ keys)
    {queue : List Asked} {steps : Table String Step} (held : inv queue steps) :
    ∃ fuel outcome, expand registry fuel queue steps = some outcome := by
  induction left : (keys.filter (· ∉ steps.keys)).card using Nat.strong_induction_on
    generalizing queue steps with
  | _ count fewer =>
    induction queue with
    | nil => exact ⟨0, .ok steps, rfl⟩
    | cons asked rest shorter =>
      by_cases known : asked.request.key ∈ steps.keys
      · obtain ⟨fuel, outcome, ended⟩ := shorter (kept.skip held known)
        refine ⟨fuel + 1, outcome, ?_⟩
        rw [expand, if_pos (Table.containsKey.mpr known), ended]
      · have fresh : ¬steps.contains asked.request.key = true := fun present =>
          known (Table.containsKey.mp present)
        cases expanded : expandOne registry steps.keys asked with
        | error e => exact ⟨1, .error e, by rw [expand, if_neg fresh, expanded]⟩
        | ok found =>
          have less := fewerLeft found.step (bounded held) known
          obtain ⟨fuel, outcome, ended⟩ := fewer _ (left ▸ less) (kept.visit held known expanded) rfl
          exact ⟨fuel + 1, outcome, by rw [expand, if_neg fresh, expanded]; exact ended⟩

end Codegen.Plan
