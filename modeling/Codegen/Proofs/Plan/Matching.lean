import Codegen.Plan
import Codegen.Proofs.Outcome

/-! Which provider a request gets, and what is known of a step when its request has been expanded: the
provider is the first that takes the request, and the step records what that provider requires. -/
namespace Codegen

def Provider.takes (p : Provider) (request : Request) : Bool :=
  p.kind = request.kind && Outcome.affirms (p.accepts request.params)

def Registry.firstTaker (registry : Registry) (request : Request) : Option Provider :=
  registry.providers.find? (·.takes request)

theorem Registry.candidatesTaking {registry : Registry} {request : Request}
    {found : List Provider} (ok : registry.candidates request = .ok found) :
    found = registry.providers.filter (·.takes request) := by
  rw [Outcome.filterOk ok, ofKind, List.filter_filter]
  refine List.filter_congr fun p _ => ?_
  rw [Provider.takes, Bool.and_comm]

theorem Registry.chosenFirst {registry : Registry} {request : Request} {chosen : Option Provider}
    (ok : registry.choose request = .ok chosen) : chosen = registry.firstTaker request := by
  obtain ⟨found, some, last⟩ := Outcome.bindOk.mp ok
  split at last
  · cases last
  · cases last
    rw [candidatesTaking some, List.head?_filter, firstTaker]

namespace Plan

def Placed (registry : Registry) (request : Request) (place : Option String) : Prop :=
  place = some request.key ∨ place = none ∧ registry.firstTaker request = none

structure Matched (registry : Registry) (s : Step) : Prop where
  provider : registry.firstTaker s.request = some s.provider
  required : ∃ requests, s.provider.required s.request.params = .ok requests ∧
    s.dependencies = requests.map Request.key
  optional : ∃ requests, s.provider.optional s.request.params = .ok requests ∧
    List.Forall₂ (Placed registry) requests s.optional

theorem optionalPlaced {registry : Registry} {planned : List String} {request : Request}
    {place : Option String} (ok : optionalPlace registry planned request = .ok place) :
    Placed registry request place := by
  simp only [optionalPlace] at ok
  split at ok
  · cases ok
    exact .inl rfl
  · obtain ⟨chosen, found, last⟩ := Outcome.bindOk.mp ok
    cases last
    rw [Registry.chosenFirst found]
    cases first : registry.firstTaker request with
    | none => exact .inr ⟨rfl, first⟩
    | some p => exact .inl rfl

theorem wantedKeys {registry : Registry} {requests : List Request} {places : List (Option String)}
    (placed : List.Forall₂ (Placed registry) requests places) :
    (((requests.zip places).filter (·.2.isSome)).map (·.1)).map Request.key
      = places.filterMap id := by
  induction placed with
  | nil => rfl
  | cons head tail ih =>
    rcases head with rfl | ⟨rfl, _⟩
    · simpa using ih
    · simpa using ih

theorem expandedParts {registry : Registry} {planned : List String} {asked : Asked}
    {found : Expansion} (ok : expandOne registry planned asked = .ok found) :
    ∃ p required optional places, registry.choose asked.request = .ok (some p) ∧
      p.required asked.request.params = .ok required ∧
      p.optional asked.request.params = .ok optional ∧
      optional.mapM (optionalPlace registry (planned ++ [asked.request.key])) = .ok places ∧
      found = ⟨⟨p, asked.request, required.map Request.key, places⟩,
        (required ++ ((optional.zip places).filter (·.2.isSome)).map (·.1)).map (⟨·, p.name⟩)⟩ := by
  obtain ⟨chosen, hc, ok⟩ := Outcome.bindOk.mp ok
  cases chosen with
  | none => cases ok
  | some p =>
    obtain ⟨required, hr, ok⟩ := Outcome.bindOk.mp ok
    obtain ⟨optional, ho, ok⟩ := Outcome.bindOk.mp ok
    obtain ⟨places, hp, last⟩ := Outcome.bindOk.mp ok
    cases last
    exact ⟨p, required, optional, places, hc, hr, ho, hp, rfl⟩

theorem expandedStep {registry : Registry} {planned : List String} {asked : Asked}
    {found : Expansion} (ok : expandOne registry planned asked = .ok found) :
    Matched registry found.step ∧ found.step.request = asked.request ∧
      found.asked.map (·.request.key) = found.step.predecessors := by
  obtain ⟨p, required, optional, places, hc, hr, ho, hp, rfl⟩ := expandedParts ok
  have taker := (Registry.chosenFirst hc).symm
  have placed : List.Forall₂ (Placed registry) optional places :=
    (Outcome.eachOk.mp hp).imp fun _ _ => optionalPlaced
  refine ⟨⟨taker, ⟨required, hr, rfl⟩, ⟨optional, ho, placed⟩⟩, rfl, ?_⟩
  simpa [Step.predecessors, Function.comp_def] using wantedKeys placed

end Plan
end Codegen
