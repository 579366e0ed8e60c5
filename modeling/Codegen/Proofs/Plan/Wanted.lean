import Codegen.Proofs.Plan.Termination
import Codegen.Proofs.Request.Key
import Mathlib.Data.List.Find

/-! Expansion where providers answer by the key of a request. The requests that are wanted are then the
same whatever order they are found in: an expansion that completes plans exactly their keys, and one
that fails has met one that nobody takes. -/
namespace Codegen

namespace Provider

/-- A hook that gives requests for all parameters, and for parameters with one canonical text the same,
where requests count by their keys. -/
def ByKey (hook : Value → Except Error (List Request)) : Prop :=
  ∀ v w : Value, v.canonical = w.canonical → ∃ requests others,
    hook v = .ok requests ∧ hook w = .ok others ∧
      requests.map Request.key = others.map Request.key

structure Steady (p : Provider) : Prop where
  accepts : ∀ v w : Value, v.canonical = w.canonical →
    ∃ answer, p.accepts v = .ok answer ∧ p.accepts w = .ok answer
  requires : ByKey p.required
  optional : ByKey p.optional

variable {hook : Value → Except Error (List Request)} {r s : Request} {requests others : List Request}

theorem byKeySame (steady : ByKey hook) (same : r.key = s.key) (first : hook r.params = .ok requests)
    (second : hook s.params = .ok others) : requests.map Request.key = others.map Request.key := by
  obtain ⟨_, _, left, right, keys⟩ := steady _ _ (Request.keyParts same).2
  cases left.symm.trans first
  cases right.symm.trans second
  exact keys

theorem byKeyMember (steady : ByKey hook) (same : r.key = s.key) (answer : hook r.params = .ok requests)
    {t : Request} (member : t ∈ requests) :
    ∃ others, hook s.params = .ok others ∧ ∃ u ∈ others, u.key = t.key := by
  obtain ⟨others, _, answered, _⟩ := steady s.params s.params rfl
  have keys := byKeySame steady same answer answered
  exact ⟨others, answered, List.mem_map.mp (keys ▸ List.mem_map.mpr ⟨t, member, rfl⟩)⟩

end Provider

namespace Registry

def Steady (registry : Registry) : Prop :=
  ∀ p ∈ registry.providers, p.Steady

variable {registry : Registry} {r s : Request}

theorem takenBySame (steady : registry.Steady) (same : r.key = s.key) :
    registry.firstTaker r = registry.firstTaker s := by
  obtain ⟨kind, params⟩ := Request.keyParts same
  refine List.find?_congr fun p member => ?_
  obtain ⟨answer, first, second⟩ := (steady p member).accepts _ _ params
  rw [Provider.takes, Provider.takes, kind, first, second]

theorem takerKnown {p : Provider} (taker : registry.firstTaker r = some p) : p ∈ registry.providers :=
  List.mem_of_find?_eq_some taker

theorem checkedSingle (checked : registry.checkSingletons = .ok ()) {p : Provider}
    (known : p ∈ registry.providers) (single : p.singleton = true) :
    (registry.ofKind p.kind).length ≤ 1 := by
  unfold checkSingletons at checked
  split at checked
  · cases checked
  · rename_i none
    have member : p ∈ registry.singletons := List.mem_filter.mpr ⟨known, single⟩
    simpa using List.find?_eq_none.mp none p member

theorem candidatesClear (checked : registry.checkSingletons = .ok ()) {found : List Provider}
    (candidates : registry.candidates r = .ok found) :
    ¬(1 < found.length ∧ found.any (·.singleton) = true) := by
  have kinds : found ⊆ registry.ofKind r.kind ∧ found.length ≤ (registry.ofKind r.kind).length := by
    rw [Outcome.filterOk candidates]
    exact ⟨List.filter_subset_self _, List.length_filter_le _ _⟩
  intro clash
  obtain ⟨several, some⟩ := clash
  obtain ⟨p, member, single⟩ := List.any_eq_true.mp some
  obtain ⟨known, kind⟩ := List.mem_filter.mp (kinds.1 member)
  have alone := checkedSingle checked known single
  rw [of_decide_eq_true kind] at alone
  exact absurd (several.trans_le (kinds.2.trans alone)) (lt_irrefl 1)

theorem choosesFirst (steady : registry.Steady) (checked : registry.checkSingletons = .ok ())
    (r : Request) : registry.choose r = .ok (registry.firstTaker r) := by
  have answers : ∀ p ∈ registry.ofKind r.kind, ∃ answer, p.accepts r.params = .ok answer := by
    intro p member
    obtain ⟨answer, ok, _⟩ := (steady p (List.mem_filter.mp member).1).accepts r.params r.params rfl
    exact ⟨answer, ok⟩
  obtain ⟨found, candidates⟩ := Outcome.filterSucceeds answers
  have chosen : registry.choose r = .ok found.head? :=
    Outcome.bindOk.mpr ⟨found, candidates, if_neg (candidatesClear checked candidates)⟩
  rw [chosen, chosenFirst chosen]

end Registry

namespace Plan

/-- The requests that are asked for at the start, those that the takers of wanted requests require, and
those that they would use if somebody takes them. -/
inductive Wanted (registry : Registry) (roots : List Request) : Request → Prop where
  | root {r} (member : r ∈ roots) : Wanted registry roots r
  | required {r s p requests} (wanted : Wanted registry roots r)
      (taker : registry.firstTaker r = some p) (answer : p.required r.params = .ok requests)
      (member : s ∈ requests) : Wanted registry roots s
  | optional {r s p requests} (wanted : Wanted registry roots r)
      (taker : registry.firstTaker r = some p) (answer : p.optional r.params = .ok requests)
      (member : s ∈ requests) (offered : (registry.firstTaker s).isSome) : Wanted registry roots s

variable {registry : Registry} {roots : List Request} {queue : List Asked} {steps : Table String Step}
  {r : Request}

theorem optionalTaken {planned : List String} {key : String}
    (ok : optionalPlace registry planned r = .ok (some key)) :
    r.key ∈ planned ∨ (registry.firstTaker r).isSome := by
  simp only [optionalPlace] at ok
  split at ok
  · rename_i known
    exact .inl known
  · obtain ⟨chosen, found, last⟩ := Outcome.bindOk.mp ok
    rw [← Registry.chosenFirst found]
    cases chosen with
    | none => cases last
    | some p => exact .inr rfl

theorem expandedAsked {planned : List String} {asked : Asked} {found : Expansion}
    (ok : expandOne registry planned asked = .ok found) :
    ∃ p required optional, registry.firstTaker asked.request = some p ∧
      p.required asked.request.params = .ok required ∧
      p.optional asked.request.params = .ok optional ∧
      ∀ more ∈ found.asked, more.request ∈ required ∨ more.request ∈ optional ∧
        (more.request.key ∈ planned ++ [asked.request.key] ∨
          (registry.firstTaker more.request).isSome) := by
  obtain ⟨p, required, optional, places, hc, hr, ho, hp, rfl⟩ := expandedParts ok
  refine ⟨p, required, optional, (Registry.chosenFirst hc).symm, hr, ho, fun more member => ?_⟩
  obtain ⟨request, inside, rfl⟩ := List.mem_map.mp member
  rcases List.mem_append.mp inside with needed | used
  · exact .inl needed
  · obtain ⟨⟨_, place⟩, kept, rfl⟩ := List.mem_map.mp used
    obtain ⟨paired, placed⟩ := List.mem_filter.mp kept
    obtain ⟨key, rfl⟩ := Option.isSome_iff_exists.mp placed
    have answered := (List.forall₂_iff_zip.mp (Outcome.eachOk.mp hp)).2 paired
    exact .inr ⟨(List.of_mem_zip paired).1, optionalTaken answered⟩

theorem plannedStep (steady : registry.Steady) {rooted : List String}
    (inv : Expanding registry rooted queue steps) (known : r.key ∈ steps.keys) :
    ∃ s, steps.find? r.key = some s ∧ s.request.key = r.key ∧ Matched registry s ∧
      registry.firstTaker r = some s.provider := by
  obtain ⟨s, found⟩ := Table.keyFound.mp known
  obtain ⟨same, matched⟩ := inv.filed _ _ found
  refine ⟨s, found, same, matched, ?_⟩
  rw [← Registry.takenBySame steady same]
  exact matched.provider

structure Wanting (registry : Registry) (roots : List Request) (queue : List Asked)
    (steps : Table String Step) : Prop where
  expanding : Expanding registry (roots.map Request.key) queue steps
  queued : ∀ asked ∈ queue, Wanted registry roots asked.request
  planned : ∀ key s, steps.find? key = some s → Wanted registry roots s.request

theorem wantingStart (registry : Registry) (queue : List Asked) :
    Wanting registry (queue.map (·.request)) queue Table.empty where
  expanding := by
    have start := expandingStart registry queue
    simpa [Function.comp_def] using start
  queued asked member := .root (List.mem_map.mpr ⟨asked, member, rfl⟩)
  planned key s found := by cases Table.findPresent.mp found

theorem wantingVisit (steady : registry.Steady) {asked : Asked} {rest : List Asked} {found : Expansion}
    (inv : Wanting registry roots (asked :: rest) steps) (fresh : asked.request.key ∉ steps.keys)
    (ok : expandOne registry steps.keys asked = .ok found) :
    Wanting registry roots (rest ++ found.asked) (steps.put asked.request.key found.step) := by
  obtain ⟨matched, request, needs⟩ := expandedStep ok
  have wanted := inv.queued asked List.mem_cons_self
  refine ⟨expandingVisit inv.expanding fresh matched request needs, fun more member => ?_, ?_⟩
  · rcases List.mem_append.mp member with old | new
    · exact inv.queued more (List.mem_cons_of_mem _ old)
    · obtain ⟨p, required, optional, taker, hr, ho, all⟩ := expandedAsked ok
      rcases all more new with needed | ⟨used, known | offered⟩
      · exact .required wanted taker hr needed
      · -- a key that is planned already, the one at hand included, has a taker
        refine .optional wanted taker ho used ?_
        rcases List.mem_append.mp known with old | itself
        · obtain ⟨s, _, _, _, taken⟩ := plannedStep steady inv.expanding old
          rw [taken, Option.isSome_some]
        · rw [Registry.takenBySame steady (List.mem_singleton.mp itself), taker, Option.isSome_some]
      · exact .optional wanted taker ho used offered
  · intro key s held
    rw [Table.findPut] at held
    split at held
    · cases held
      rw [request]
      exact wanted
    · exact inv.planned key s held

theorem wantingKept (steady : registry.Steady) (roots : List Request) :
    Kept registry (Wanting registry roots) where
  skip inv known := ⟨expandingSkip inv.expanding known,
    fun asked member => inv.queued asked (List.mem_cons_of_mem _ member), inv.planned⟩
  visit inv fresh ok := wantingVisit steady inv fresh ok

theorem wantedPlanned (steady : registry.Steady)
    (inv : Expanding registry (roots.map Request.key) [] steps) (wanted : Wanted registry roots r) :
    r.key ∈ steps.keys := by
  have covered : ∀ key, Covered [] steps key → key ∈ steps.keys := fun key covers =>
    covers.resolve_right List.not_mem_nil
  induction wanted with
  | root member => exact covered _ (inv.rooted _ (List.mem_map.mpr ⟨_, member, rfl⟩))
  | @required r s p requests _ taker answer member ih =>
    obtain ⟨t, found, same, matched, taken⟩ := plannedStep steady inv ih
    cases taker.symm.trans taken
    obtain ⟨others, answered, listed⟩ := matched.required
    have requires := (steady _ (Registry.takerKnown taker)).requires
    have keys := Provider.byKeySame requires same.symm answer answered
    refine covered _ (inv.closed t (Table.valuesMember.mpr ⟨_, found⟩) _ (List.mem_append_left _ ?_))
    rw [listed, ← keys]
    exact List.mem_map.mpr ⟨s, member, rfl⟩
  | @optional r s p requests _ taker answer member offered ih =>
    obtain ⟨t, found, same, matched, taken⟩ := plannedStep steady inv ih
    cases taker.symm.trans taken
    obtain ⟨others, answered, placed⟩ := matched.optional
    have offers := (steady _ (Registry.takerKnown taker)).optional
    obtain ⟨_, answers, other, inside, equal⟩ := Provider.byKeyMember offers same.symm answer member
    cases answers.symm.trans answered
    refine covered _ (inv.closed t (Table.valuesMember.mpr ⟨_, found⟩) _ (List.mem_append_right _ ?_))
    obtain ⟨place, kept, fits⟩ := Outcome.eachPaired placed other inside
    rcases fits with rfl | ⟨_, refused⟩
    · exact List.mem_filterMap.mpr ⟨_, kept, by rw [equal, id]⟩
    · rw [← Registry.takenBySame steady equal, refused] at offered
      cases offered

def slot (registry : Registry) (r : Request) : Option String :=
  (registry.firstTaker r).map fun _ => r.key

theorem slotsSame (steady : registry.Steady) {requests others : List Request}
    (same : requests.map Request.key = others.map Request.key) :
    requests.map (slot registry) = others.map (slot registry) := by
  induction requests generalizing others with
  | nil => rw [List.map_eq_nil_iff.mp same.symm]
  | cons r requests ih =>
    obtain ⟨s, others, rfl, key, rest⟩ := List.map_eq_cons_iff.mp same.symm
    rw [List.map_cons, List.map_cons, ih rest.symm, slot, slot, key,
      Registry.takenBySame steady key]

theorem slotsFilled {requests : List Request} {places : List (Option String)}
    (placed : List.Forall₂ (Placed registry) requests places)
    (taken : ∀ r : Request, some r.key ∈ places → (registry.firstTaker r).isSome) :
    places = requests.map (slot registry) := by
  induction placed with
  | nil => rfl
  | @cons r place requests places head tail ih =>
    have rest := ih fun other member => taken other (List.mem_cons_of_mem _ member)
    rcases head with rfl | ⟨rfl, refused⟩
    · obtain ⟨p, taker⟩ := Option.isSome_iff_exists.mp (taken r List.mem_cons_self)
      rw [List.map_cons, ← rest, slot, taker, Option.map_some]
    · rw [List.map_cons, ← rest, slot, refused, Option.map_none]

structure Agree (s t : Step) : Prop where
  provider : s.provider = t.provider
  dependencies : s.dependencies = t.dependencies
  optional : s.optional = t.optional

theorem completedSlots (steady : registry.Steady) {rooted : List String}
    (inv : Expanding registry rooted [] steps) {s : Step} (member : s ∈ steps.values) :
    Matched registry s ∧ ∀ r : Request, some r.key ∈ s.optional → (registry.firstTaker r).isSome := by
  obtain ⟨key, found⟩ := Table.valuesMember.mp member
  refine ⟨(inv.filed key s found).2, fun r kept => ?_⟩
  have needed : r.key ∈ s.predecessors :=
    List.mem_append_right _ (List.mem_filterMap.mpr ⟨_, kept, rfl⟩)
  have known := (inv.closed s member _ needed).resolve_right List.not_mem_nil
  obtain ⟨t, _, _, _, taker⟩ := plannedStep steady inv known
  rw [taker, Option.isSome_some]

theorem stepsAgree (steady : registry.Steady) {others : Table String Step} {rooted rooted' : List String}
    (inv : Expanding registry rooted [] steps) (inv' : Expanding registry rooted' [] others)
    {s t : Step} (left : s ∈ steps.values) (right : t ∈ others.values) (same : s.key = t.key) :
    Agree s t := by
  obtain ⟨matched, placed⟩ := completedSlots steady inv left
  obtain ⟨matched', placed'⟩ := completedSlots steady inv' right
  have taker := Registry.takenBySame (r := s.request) (s := t.request) steady same
  rw [matched.provider, matched'.provider] at taker
  have provider := Option.some.inj taker
  have answers := steady s.provider (Registry.takerKnown matched.provider)
  obtain ⟨requests, answered, listed⟩ := matched.required
  obtain ⟨requests', answered', listed'⟩ := matched'.required
  obtain ⟨options, used, kept⟩ := matched.optional
  obtain ⟨options', used', kept'⟩ := matched'.optional
  rw [← provider] at answered' used'
  refine ⟨provider, ?_, ?_⟩
  · rw [listed, listed', Provider.byKeySame answers.requires same answered answered']
  · rw [slotsFilled kept placed, slotsFilled kept' placed']
    exact slotsSame steady (Provider.byKeySame answers.optional same used used')

theorem expandOneTaken (steady : registry.Steady) (checked : registry.checkSingletons = .ok ())
    {planned : List String} {asked : Asked} {p : Provider}
    (taker : registry.firstTaker asked.request = some p) :
    ∃ found, expandOne registry planned asked = .ok found := by
  have chosen : registry.choose asked.request = .ok (some p) := by
    rw [Registry.choosesFirst steady checked, taker]
  have answers := steady p (Registry.takerKnown taker)
  obtain ⟨required, _, hr, _⟩ := answers.requires asked.request.params asked.request.params rfl
  obtain ⟨optional, _, ho, _⟩ := answers.optional asked.request.params asked.request.params rfl
  have places : ∀ r ∈ optional, ∃ place,
      optionalPlace registry (planned ++ [asked.request.key]) r = .ok place := by
    intro r _
    simp only [optionalPlace]
    split
    · exact ⟨_, rfl⟩
    · exact ⟨_, Outcome.bindOk.mpr ⟨_, Registry.choosesFirst steady checked r, rfl⟩⟩
  obtain ⟨placed, hp⟩ := Outcome.eachSucceeds.mpr places
  exact ⟨_, Outcome.bindOk.mpr ⟨_, chosen, Outcome.bindOk.mpr ⟨_, hr, Outcome.bindOk.mpr
    ⟨_, ho, Outcome.bindOk.mpr ⟨_, hp, rfl⟩⟩⟩⟩⟩

theorem expansionRefused (steady : registry.Steady) (checked : registry.checkSingletons = .ok ())
    {fuel : Nat} {e : Error} (inv : Wanting registry roots queue steps)
    (ended : expand registry fuel queue steps = some (.error e)) :
    ∃ r requestedBy, Wanted registry roots r ∧ registry.firstTaker r = none ∧
      e = .notFound r.kind r.params requestedBy := by
  cases expandHalted (wantingKept steady roots) fuel inv ended with
  | @failed asked rest steps e held refused =>
    refine ⟨asked.request, asked.requestedBy, held.queued asked List.mem_cons_self, ?_⟩
    cases taker : registry.firstTaker asked.request with
    | none =>
      simp only [expandOne, Registry.choosesFirst steady checked, taker] at refused
      cases refused
      exact ⟨rfl, rfl⟩
    | some p =>
      obtain ⟨found, ok⟩ := expandOneTaken steady checked taker
      rw [ok] at refused
      cases refused

theorem wantedSame (steady : registry.Steady) {others : List Request}
    (same : ∀ key ∈ roots.map Request.key, key ∈ others.map Request.key)
    (wanted : Wanted registry roots r) : ∃ s, Wanted registry others s ∧ s.key = r.key := by
  induction wanted with
  | root member =>
    obtain ⟨s, inside, equal⟩ := List.mem_map.mp (same _ (List.mem_map.mpr ⟨_, member, rfl⟩))
    exact ⟨s, .root inside, equal⟩
  | @required r t p requests _ taker answer member ih =>
    obtain ⟨s, wanted, equal⟩ := ih
    have taken := (Registry.takenBySame steady equal).trans taker
    have requires := (steady _ (Registry.takerKnown taker)).requires
    obtain ⟨_, answered, u, inside, agrees⟩ := Provider.byKeyMember requires equal.symm answer member
    exact ⟨u, .required wanted taken answered inside, agrees⟩
  | @optional r t p requests _ taker answer member offered ih =>
    obtain ⟨s, wanted, equal⟩ := ih
    have taken := (Registry.takenBySame steady equal).trans taker
    have offers := (steady _ (Registry.takerKnown taker)).optional
    obtain ⟨_, answered, u, inside, agrees⟩ := Provider.byKeyMember offers equal.symm answer member
    refine ⟨u, .optional wanted taken answered inside ?_, agrees⟩
    rw [Registry.takenBySame steady agrees]
    exact offered

end Plan
end Codegen
