import Codegen.Proofs.Graph.Order
import Codegen.Proofs.Plan.Wanted

/-! Kinds with a singleton. Where such a kind has another provider too, a resolution is refused before any
provider is asked, in whatever order the providers were registered and whatever they would answer. Elsewhere
a choice among providers fails only if a hook fails itself. -/
namespace Codegen

namespace Profile

def ofKind (profiles : List Profile) (kind : String) : List Profile :=
  profiles.filter (·.kind = kind)

def Crowded (profiles : List Profile) : Prop :=
  ∃ kind, (∃ p ∈ ofKind profiles kind, p.singleton = true) ∧ 2 ≤ (ofKind profiles kind).length

def disturbed (profiles : List Profile) : Option Profile :=
  profiles.find? (fun p => p.singleton ∧ 1 < (ofKind profiles p.kind).length)

variable {profiles order : List Profile}

theorem crowdedReordered (same : order.Perm profiles) : Crowded order ↔ Crowded profiles := by
  have kinds (kind : String) : (ofKind order kind).Perm (ofKind profiles kind) := same.filter _
  refine exists_congr fun kind => and_congr ?_ (by rw [(kinds kind).length_eq])
  exact exists_congr fun p => and_congr_left fun _ => (kinds kind).mem_iff

theorem disturbedNone : disturbed profiles = none ↔ ¬Crowded profiles := by
  rw [disturbed, List.find?_eq_none, Crowded]
  constructor
  · rintro alone ⟨kind, ⟨p, member, single⟩, several⟩
    obtain ⟨known, same⟩ := List.mem_filter.mp member
    cases of_decide_eq_true same
    exact alone p known (decide_eq_true ⟨single, several⟩)
  · intro free p known disturbs
    obtain ⟨single, several⟩ := of_decide_eq_true disturbs
    exact free ⟨p.kind, ⟨p, List.mem_filter.mpr ⟨known, decide_eq_true rfl⟩, single⟩, several⟩

end Profile

namespace Registry

variable {registry : Registry} {request : Request} {e : Error}

def profiles (registry : Registry) : List Profile :=
  registry.providers.map (·.toProfile)

theorem kindProfiles (registry : Registry) (kind : String) :
    (registry.ofKind kind).map (·.toProfile) = Profile.ofKind registry.profiles kind := by
  rw [ofKind, Profile.ofKind, profiles, List.filter_map]
  rfl

theorem checkedProfiles (registry : Registry) : registry.checkSingletons =
    match Profile.disturbed registry.profiles with
    | some p => .error (.ambiguous p.kind ((Profile.ofKind registry.profiles p.kind).map (·.name)))
    | none => .ok () := by
  have sizes (kind : String) :
      (registry.ofKind kind).length = (Profile.ofKind registry.profiles kind).length := by
    rw [← kindProfiles, List.length_map]
  have first : Profile.disturbed registry.profiles =
      (registry.singletons.find? fun p => 1 < (registry.ofKind p.kind).length).map (·.toProfile) := by
    rw [Profile.disturbed, profiles, List.find?_map, singletons, List.find?_filter]
    refine congrArg _ (List.find?_congr fun p _ => ?_)
    simp [sizes, profiles]
  rw [checkSingletons, first]
  cases registry.singletons.find? fun p => 1 < (registry.ofKind p.kind).length with
  | none => rfl
  | some p =>
    have names := congrArg (List.map (·.name)) (kindProfiles registry p.kind)
    rw [List.map_map] at names
    exact congrArg (fun found => Except.error (Error.ambiguous p.kind found)) names

theorem checkedCrowded : registry.checkSingletons = .ok () ↔ ¬Profile.Crowded registry.profiles := by
  rw [← Profile.disturbedNone, checkedProfiles]
  cases Profile.disturbed registry.profiles <;> simp

theorem crowdRefused {e : Error} (refused : registry.checkSingletons = .error e) :
    Profile.Crowded registry.profiles ∧ ∃ kind names, e = .ambiguous kind names := by
  constructor
  · by_contra free
    cases refused.symm.trans (checkedCrowded.mpr free)
  · rw [checkedProfiles] at refused
    split at refused
    · exact ⟨_, _, (Except.error.inj refused).symm⟩
    · cases refused

theorem choiceFailed (checked : registry.checkSingletons = .ok ())
    (failed : registry.choose request = .error e) :
    ∃ p ∈ registry.ofKind request.kind, p.accepts request.params = .error e := by
  rcases Outcome.bindError.mp failed with refused | ⟨found, candidates, last⟩
  · exact Outcome.filterError refused
  · rw [if_neg (candidatesClear checked candidates)] at last
    cases last

inductive Raises (registry : Registry) (e : Error) : Prop where
  | accepts {p v} (known : p ∈ registry.providers) (raised : p.accepts v = .error e) : Raises registry e
  | requires {p v} (known : p ∈ registry.providers) (raised : p.requires v = .error e) : Raises registry e
  | optional {p v} (known : p ∈ registry.providers) (raised : p.optionallyRequires v = .error e) :
      Raises registry e

end Registry

namespace Plan

inductive Cause (registry : Registry) : Error → Prop where
  | crowded {kind names} (crowded : Profile.Crowded registry.profiles) : Cause registry (.ambiguous kind names)
  | unread {cause} : Cause registry (.shape cause)
  | untaken {kind params requestedBy} : Cause registry (.notFound kind params requestedBy)
  | circle {cycle} : Cause registry (.cyclic cycle)
  | hook {e} (raised : registry.Raises e) : Cause registry e

section Causes

variable {registry : Registry} {p : Provider} {request : Request} {e : Error}

theorem readCause {forms : List RequestForm} (failed : forms.mapM Provider.readForm = .error e) :
    Cause registry e := by
  obtain ⟨form, _, refused⟩ := Outcome.eachError failed
  cases read : form.request with
  | ok request =>
    rw [Provider.readForm, read] at refused
    cases refused
  | error cause =>
    rw [Provider.readForm, read] at refused
    cases refused
    exact .unread

theorem requiredCause (known : p ∈ registry.providers) {v : Value} (failed : p.required v = .error e) :
    Cause registry e := by
  rcases Outcome.bindError.mp failed with raised | ⟨_, _, unread⟩
  · exact .hook (.requires known raised)
  · exact readCause unread

theorem optionalCause (known : p ∈ registry.providers) {v : Value} (failed : p.optional v = .error e) :
    Cause registry e := by
  rcases Outcome.bindError.mp failed with raised | ⟨_, _, unread⟩
  · exact .hook (.optional known raised)
  · exact readCause unread

theorem choiceCause (checked : registry.checkSingletons = .ok ())
    (failed : registry.choose request = .error e) : Cause registry e := by
  obtain ⟨p, member, raised⟩ := Registry.choiceFailed checked failed
  exact .hook (.accepts (List.mem_filter.mp member).1 raised)

theorem placeCause (checked : registry.checkSingletons = .ok ()) {planned : List String}
    (failed : optionalPlace registry planned request = .error e) : Cause registry e := by
  simp only [optionalPlace] at failed
  split at failed
  · cases failed
  · rcases Outcome.bindError.mp failed with refused | ⟨_, _, last⟩
    · exact choiceCause checked refused
    · cases last

theorem expandOneCause (checked : registry.checkSingletons = .ok ()) {planned : List String} {asked : Asked}
    (failed : expandOne registry planned asked = .error e) : Cause registry e := by
  rcases Outcome.bindError.mp failed with refused | ⟨chosen, found, failed⟩
  · exact choiceCause checked refused
  · have taker := Registry.chosenFirst found
    cases chosen with
    | none =>
      cases failed
      exact .untaken
    | some p =>
      have known := Registry.takerKnown taker.symm
      rcases Outcome.bindError.mp failed with refused | ⟨required, _, failed⟩
      · exact requiredCause known refused
      rcases Outcome.bindError.mp failed with refused | ⟨optional, _, failed⟩
      · exact optionalCause known refused
      rcases Outcome.bindError.mp failed with refused | ⟨places, _, last⟩
      · obtain ⟨_, _, unplaced⟩ := Outcome.eachError refused
        exact placeCause checked unplaced
      · cases last

theorem expandCause (checked : registry.checkSingletons = .ok ()) {fuel : Nat} {queue : List Asked}
    {steps : Table String Step} (ended : expand registry fuel queue steps = some (.error e)) :
    Cause registry e := by
  have kept : Kept registry (fun _ _ => True) := ⟨fun _ _ => trivial, fun _ _ _ => trivial⟩
  cases expandHalted kept fuel trivial ended with
  | failed _ refused => exact expandOneCause checked refused

theorem resolutionCause {targets : List RequestForm} {fuel : Nat}
    (ended : resolveWithin fuel registry targets = some (.error e)) : Cause registry e := by
  simp only [resolveWithin] at ended
  split at ended
  · rename_i refused
    cases ended
    rcases Outcome.bindError.mp refused with crowd | ⟨_, _, unread⟩
    · obtain ⟨crowded, kind, names, rfl⟩ := Registry.crowdRefused crowd
      exact .crowded crowded
    · rcases Outcome.bindError.mp unread with failed | ⟨_, _, last⟩
      · exact readCause failed
      · cases last
  · rename_i queue queued
    obtain ⟨_, checked, _⟩ := Outcome.bindOk.mp queued
    obtain ⟨outcome, expanded, last⟩ := Option.map_eq_some_iff.mp ended
    rcases Outcome.bindError.mp last with failed | ⟨steps, _, unarranged⟩
    · exact expandCause checked (failed ▸ expanded)
    · rcases Outcome.bindError.mp unarranged with failed | ⟨_, _, last⟩
      · obtain ⟨cycle, rfl⟩ := Graph.traversalRefused failed
        exact .circle
      · cases last

end Causes

structure Exclusive (registry : Registry) : Prop where
  /-- The profiles alone settle the error, in each order of registration: targets, requests that are
  pending and hooks do not count. -/
  refused : Profile.Crowded registry.profiles → ∀ order, order.Perm registry.profiles → ∃ kind names,
    names = (Profile.ofKind order kind).map (·.name) ∧ ∀ other : Registry, other.profiles = order →
      ∀ targets, resolve other targets = .error (.ambiguous kind names) ∧
        ∀ fuel, resolveWithin fuel other targets = some (.error (.ambiguous kind names))
  raised : ∀ targets fuel kind names,
    resolveWithin fuel registry targets = some (.error (.ambiguous kind names)) →
      Profile.Crowded registry.profiles ∨ registry.Raises (.ambiguous kind names)
  settled : (∀ kind names, ¬registry.Raises (.ambiguous kind names)) → ∀ targets,
    ((∃ kind names, resolve registry targets = .error (.ambiguous kind names)) ↔
      Profile.Crowded registry.profiles) ∧
    ∀ fuel, (∃ kind names, resolveWithin fuel registry targets = some (.error (.ambiguous kind names))) ↔
      Profile.Crowded registry.profiles
  reordered : ∀ order, order.Perm registry.profiles →
    (Profile.Crowded order ↔ Profile.Crowded registry.profiles)
  matched : ¬Profile.Crowded registry.profiles → ∀ request e, registry.choose request = .error e →
    ∃ p ∈ registry.ofKind request.kind, p.accepts request.params = .error e

section Exclusive

variable {registry : Registry}

theorem resolveAmbiguous {targets : List RequestForm} {kind : String} {names : List String} :
    resolve registry targets = .error (.ambiguous kind names) ↔
      resolveWithin limit registry targets = some (.error (.ambiguous kind names)) := by
  unfold resolve
  cases resolveWithin limit registry targets <;> simp

theorem crowdResolved {order : List Profile} (crowded : Profile.Crowded order) : ∃ kind names,
    names = (Profile.ofKind order kind).map (·.name) ∧ ∀ other : Registry, other.profiles = order →
      ∀ targets, resolve other targets = .error (.ambiguous kind names) ∧
        ∀ fuel, resolveWithin fuel other targets = some (.error (.ambiguous kind names)) := by
  obtain ⟨p, found⟩ := Option.ne_none_iff_exists'.mp (mt Profile.disturbedNone.mp (not_not.mpr crowded))
  refine ⟨p.kind, _, rfl, fun other same targets => ?_⟩
  have refused := Registry.checkedProfiles other
  rw [same, found] at refused
  have ended (fuel : Nat) : resolveWithin fuel other targets =
      some (.error (.ambiguous p.kind ((Profile.ofKind order p.kind).map (·.name)))) := by
    rw [resolveWithin, queue, refused]
    rfl
  exact ⟨resolveAmbiguous.mpr (ended limit), ended⟩

theorem crowdRaised {targets : List RequestForm} {fuel : Nat} {kind : String} {names : List String}
    (ended : resolveWithin fuel registry targets = some (.error (.ambiguous kind names))) :
    Profile.Crowded registry.profiles ∨ registry.Raises (.ambiguous kind names) := by
  cases resolutionCause ended with
  | crowded crowded => exact .inl crowded
  | hook raised => exact .inr raised

theorem crowdSettled (quiet : ∀ kind names, ¬registry.Raises (.ambiguous kind names))
    (targets : List RequestForm) (fuel : Nat) :
    (∃ kind names, resolveWithin fuel registry targets = some (.error (.ambiguous kind names))) ↔
      Profile.Crowded registry.profiles := by
  constructor
  · rintro ⟨kind, names, ended⟩
    exact (crowdRaised ended).resolve_right (quiet kind names)
  · intro crowded
    obtain ⟨kind, names, _, refused⟩ := crowdResolved crowded
    exact ⟨kind, names, (refused registry rfl targets).2 fuel⟩

end Exclusive

theorem singletonsExclusive (registry : Registry) : Exclusive registry where
  refused crowded order same := crowdResolved ((Profile.crowdedReordered same).mpr crowded)
  raised targets fuel kind names ended := crowdRaised ended
  settled quiet targets := ⟨by simpa only [resolveAmbiguous] using crowdSettled quiet targets limit,
    crowdSettled quiet targets⟩
  reordered order same := Profile.crowdedReordered same
  matched free request e failed := Registry.choiceFailed (Registry.checkedCrowded.mpr free) failed

-- The regular provider never takes a request, and still the singleton of its kind may not stand beside it.
example :
    let regular : Provider :=
      { name := "regular", kind := "model", accepts := fun _ => .ok false, provide := fun _ _ => .done .null }
    let single : Provider :=
      { name := "single", kind := "model", singleton := true, provide := fun _ _ => .done .null }
    resolve { providers := [regular, single] } [] = .error (.ambiguous "model" ["regular", "single"]) := by
  cbv

end Plan
end Codegen
