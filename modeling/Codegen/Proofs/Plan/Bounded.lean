import Codegen.Proofs.Plan.Wanted
import Mathlib.Algebra.Ring.Nat
import Mathlib.Data.Set.Finite.Basic

/-! How long an expansion takes. The run of an expansion is told with what became of each request that was
taken from the queue. No key is expanded twice, and no more requests are taken than were queued at the start
or by an expansion. If the requests that can be reached have finitely many keys the run ends, also where
requests require each other. -/
namespace Codegen

def Outcome.count {ε α : Type} : Except ε (List α) → Nat
  | .ok xs => xs.length
  | .error _ => 0

def Registry.demand (registry : Registry) (r : Request) : Nat :=
  match registry.choose r with
  | .ok (some p) => Outcome.count (p.required r.params) + Outcome.count (p.optional r.params)
  | _ => 0

namespace Plan

inductive Reachable (registry : Registry) (roots : List Request) : Request → Prop where
  | root {r} (member : r ∈ roots) : Reachable registry roots r
  | required {r s p requests} (reached : Reachable registry roots r)
      (chosen : registry.choose r = .ok (some p)) (answer : p.required r.params = .ok requests)
      (member : s ∈ requests) : Reachable registry roots s
  | optional {r s p requests} (reached : Reachable registry roots r)
      (chosen : registry.choose r = .ok (some p)) (answer : p.optional r.params = .ok requests)
      (member : s ∈ requests) : Reachable registry roots s

inductive Turn where
  | passed (asked : Asked)
  | expanded (asked : Asked)

def Turn.expansion : Turn → Option Request
  | passed _ => none
  | expanded asked => some asked.request

def expansions (turns : List Turn) : List Request :=
  turns.filterMap Turn.expansion

theorem expansionsPassed (asked : Asked) (turns : List Turn) :
    expansions (.passed asked :: turns) = expansions turns := rfl

theorem expansionsMore (asked : Asked) (turns : List Turn) :
    expansions (.expanded asked :: turns) = asked.request :: expansions turns := rfl

inductive Worked (registry : Registry) : List Asked → Table String Step → List Turn →
    Except Error (Table String Step) → Prop where
  | done {steps} : Worked registry [] steps [] (.ok steps)
  | passed {asked rest steps turns outcome} (known : asked.request.key ∈ steps.keys)
      (next : Worked registry rest steps turns outcome) :
      Worked registry (asked :: rest) steps (.passed asked :: turns) outcome
  | failed {asked rest steps e} (fresh : asked.request.key ∉ steps.keys)
      (refused : expandOne registry steps.keys asked = .error e) :
      Worked registry (asked :: rest) steps [.expanded asked] (.error e)
  | expanded {asked rest steps found turns outcome} (fresh : asked.request.key ∉ steps.keys)
      (ok : expandOne registry steps.keys asked = .ok found)
      (next : Worked registry (rest ++ found.asked) (steps.put asked.request.key found.step) turns outcome) :
      Worked registry (asked :: rest) steps (.expanded asked :: turns) outcome

section Worked

variable {registry : Registry} {queue : List Asked} {steps : Table String Step} {turns : List Turn}
  {outcome : Except Error (Table String Step)}

theorem expandTurns {fuel : Nat} (ended : expand registry fuel queue steps = some outcome) :
    ∃ turns, Worked registry queue steps turns outcome ∧ turns.length ≤ fuel := by
  induction fuel generalizing queue steps with
  | zero =>
    cases queue with
    | nil =>
      cases ended
      exact ⟨[], .done, Nat.le_refl _⟩
    | cons asked rest => cases ended
  | succ fuel ih =>
    cases queue with
    | nil =>
      cases ended
      exact ⟨[], .done, Nat.zero_le _⟩
    | cons asked rest =>
      simp only [expand] at ended
      split at ended
      · rename_i known
        obtain ⟨turns, worked, few⟩ := ih ended
        exact ⟨_, .passed (Table.containsKey.mp known) worked, Nat.succ_le_succ few⟩
      · rename_i unknown
        have fresh : asked.request.key ∉ steps.keys := fun known => unknown (Table.containsKey.mpr known)
        split at ended
        · rename_i refused
          cases ended
          exact ⟨_, .failed fresh refused, Nat.succ_le_succ (Nat.zero_le _)⟩
        · rename_i found ok
          obtain ⟨turns, worked, few⟩ := ih ended
          exact ⟨_, .expanded fresh ok worked, Nat.succ_le_succ few⟩

theorem workedExpand (worked : Worked registry queue steps turns outcome) {fuel : Nat}
    (enough : turns.length ≤ fuel) : expand registry fuel queue steps = some outcome := by
  induction worked generalizing fuel with
  | done => cases fuel <;> rfl
  | passed known _ ih =>
    cases fuel with
    | zero => cases enough
    | succ fuel =>
      rw [expand, if_pos (Table.containsKey.mpr known)]
      exact ih (Nat.le_of_succ_le_succ enough)
  | failed fresh refused =>
    cases fuel with
    | zero => cases enough
    | succ fuel => rw [expand, if_neg (mt Table.containsKey.mp fresh), refused]
  | expanded fresh ok _ ih =>
    cases fuel with
    | zero => cases enough
    | succ fuel =>
      rw [expand, if_neg (mt Table.containsKey.mp fresh), ok]
      exact ih (Nat.le_of_succ_le_succ enough)

theorem expandedDemand {planned : List String} {asked : Asked} {found : Expansion}
    (ok : expandOne registry planned asked = .ok found) :
    found.asked.length ≤ registry.demand asked.request := by
  obtain ⟨p, required, optional, places, chosen, hr, ho, _, rfl⟩ := expandedParts ok
  have used : (((optional.zip places).filter (·.2.isSome)).map (·.1)).length ≤ optional.length := by
    rw [List.length_map]
    refine (List.length_filter_le _ _).trans ?_
    rw [List.length_zip]
    exact Nat.min_le_left _ _
  rw [Registry.demand, chosen]
  simp only [hr, ho, Outcome.count, List.length_map, List.length_append] at used ⊢
  omega

theorem workedTaken (worked : Worked registry queue steps turns outcome) :
    turns.length ≤ queue.length + ((expansions turns).map registry.demand).sum := by
  induction worked with
  | done => exact Nat.le_refl 0
  | passed _ _ ih =>
    rw [expansionsPassed, List.length_cons, List.length_cons]
    omega
  | failed =>
    rw [List.length_cons, List.length_cons, List.length_nil]
    omega
  | expanded _ ok _ ih =>
    have few := expandedDemand ok
    rw [expansionsMore, List.map_cons, List.sum_cons, List.length_cons, List.length_cons]
    rw [List.length_append] at ih
    omega

theorem workedOnce (worked : Worked registry queue steps turns outcome) :
    ((expansions turns).map Request.key).Nodup ∧
      ∀ key ∈ (expansions turns).map Request.key, key ∉ steps.keys := by
  induction worked with
  | done => simp [expansions]
  | passed _ _ ih => exact ih
  | failed fresh => simpa [expansions, Turn.expansion] using fresh
  | expanded fresh _ _ ih =>
    obtain ⟨distinct, apart⟩ := ih
    rw [expansionsMore, List.map_cons]
    refine ⟨List.nodup_cons.mpr ⟨fun again => ?_, distinct⟩, List.forall_mem_cons.mpr ⟨fresh, ?_⟩⟩
    · exact apart _ again (Table.memKeysPut.mpr (.inr rfl))
    · exact fun key later known => apart key later (Table.memKeysPut.mpr (.inl known))

def AllReachable (registry : Registry) (roots : List Request) (queue : List Asked) : Prop :=
  ∀ asked ∈ queue, Reachable registry roots asked.request

theorem reachableStart (registry : Registry) (queue : List Asked) :
    AllReachable registry (queue.map (·.request)) queue :=
  fun asked member => .root (List.mem_map.mpr ⟨asked, member, rfl⟩)

theorem reachableRest {roots : List Request} {asked : Asked} {rest : List Asked}
    (reached : AllReachable registry roots (asked :: rest)) : AllReachable registry roots rest :=
  fun more member => reached more (List.mem_cons_of_mem _ member)

theorem reachableNext {roots : List Request} {asked : Asked} {rest : List Asked} {planned : List String}
    {found : Expansion} (reached : AllReachable registry roots (asked :: rest))
    (ok : expandOne registry planned asked = .ok found) :
    AllReachable registry roots (rest ++ found.asked) := by
  obtain ⟨p, required, optional, places, chosen, hr, ho, _, rfl⟩ := expandedParts ok
  have own := reached asked List.mem_cons_self
  intro more member
  rcases List.mem_append.mp member with old | new
  · exact reachableRest reached more old
  · obtain ⟨request, inside, rfl⟩ := List.mem_map.mp new
    rcases List.mem_append.mp inside with needed | used
    · exact .required own chosen hr needed
    · obtain ⟨⟨_, place⟩, kept, rfl⟩ := List.mem_map.mp used
      exact .optional own chosen ho (List.of_mem_zip (List.mem_filter.mp kept).1).1

theorem reachableKept (registry : Registry) (roots : List Request) :
    Kept registry (fun queue _ => AllReachable registry roots queue) where
  skip reached _ := reachableRest reached
  visit reached _ ok := reachableNext reached ok

theorem workedReachable {roots : List Request} (reached : AllReachable registry roots queue)
    (worked : Worked registry queue steps turns outcome) :
    ∀ r ∈ expansions turns, Reachable registry roots r := by
  induction worked with
  | done => simp [expansions]
  | passed _ _ ih => exact ih (reachableRest reached)
  | failed => simpa [expansions, Turn.expansion] using reached _ List.mem_cons_self
  | expanded _ ok _ ih =>
    rw [expansionsMore]
    exact List.forall_mem_cons.mpr ⟨reached _ List.mem_cons_self, ih (reachableNext reached ok)⟩

theorem queueLength {targets : List RequestForm} {asked : List Asked}
    (queued : Plan.queue registry targets = .ok asked) :
    asked.length = targets.length + registry.pending.length + registry.singletons.length := by
  obtain ⟨_, _, queued⟩ := Outcome.bindOk.mp queued
  obtain ⟨requests, read, last⟩ := Outcome.bindOk.mp queued
  cases last
  simp [initial, (Outcome.eachOk.mp read).length_eq, Nat.add_assoc]

theorem resolvedWorked {targets : List RequestForm} {asked : List Asked}
    (queued : Plan.queue registry targets = .ok asked) (worked : Worked registry asked Table.empty turns outcome)
    {fuel : Nat} (enough : turns.length ≤ fuel) :
    resolveWithin fuel registry targets = some (outcome.bind arrange) := by
  rw [resolveWithin, queued]
  simp only [workedExpand worked enough, Option.map_some]

end Worked

structure Bounded (registry : Registry) (targets : List RequestForm) (asked : List Asked)
    (turns : List Turn) (outcome : Except Error (Table String Step)) : Prop where
  worked : Worked registry asked Table.empty turns outcome
  ends : ∀ fuel, turns.length ≤ fuel →
    resolveWithin fuel registry targets = some (outcome.bind arrange)
  once : ((expansions turns).map Request.key).Nodup
  reached : ∀ r ∈ expansions turns, Reachable registry (asked.map (·.request)) r
  taken : turns.length ≤ targets.length + registry.pending.length + registry.singletons.length
    + ((expansions turns).map registry.demand).sum

theorem expansionBounded {registry : Registry} {targets : List RequestForm} {asked : List Asked}
    (queued : queue registry targets = .ok asked)
    (finite : {key | ∃ r, Reachable registry (asked.map (·.request)) r ∧ r.key = key}.Finite) :
    ∃ turns outcome, Bounded registry targets asked turns outcome := by
  have start := reachableStart registry asked
  obtain ⟨fuel, outcome, ended⟩ : ∃ fuel outcome, expand registry fuel asked Table.empty = some outcome :=
    expandEnds (reachableKept registry _) finite.toFinset
      (fun {next _ _} reached => finite.mem_toFinset.mpr
        ⟨next.request, reached next List.mem_cons_self, rfl⟩) start
  obtain ⟨turns, worked, _⟩ := expandTurns ended
  exact ⟨turns, outcome,
    { worked := worked
      ends := fun _ => resolvedWorked queued worked
      once := (workedOnce worked).1
      reached := workedReachable start worked
      taken := queueLength queued ▸ workedTaken worked }⟩

/- Two providers that require each other, the first of which would also use its own result. -/
namespace Sample

def left : Provider :=
  { name := "left", kind := "left"
    requires := fun _ => .ok [.bare "right"]
    optionallyRequires := fun _ => .ok [.bare "left"]
    provide := fun _ deps => .done (.list deps) }

def right : Provider :=
  { name := "right", kind := "right"
    requires := fun _ => .ok [.bare "left"]
    provide := fun _ deps => .done (.list deps) }

def circular : Registry :=
  { providers := [left, right] }

def circularAsked : List Asked :=
  [⟨⟨"left", .null⟩, "initial"⟩]

theorem circularReachable {r : Request} (reached : Reachable circular (circularAsked.map (·.request)) r) :
    r = ⟨"left", .null⟩ ∨ r = ⟨"right", .null⟩ := by
  have members : circular.providers = [left, right] := rfl
  cases reached with
  | root member => exact .inl (List.mem_singleton.mp member)
  | required _ chosen answer member =>
    have known := Registry.takerKnown (Registry.chosenFirst chosen).symm
    simp only [members, List.mem_cons, List.not_mem_nil, or_false] at known
    rcases known with rfl | rfl <;> cases answer
    · exact .inr (List.mem_singleton.mp member)
    · exact .inl (List.mem_singleton.mp member)
  | optional _ chosen answer member =>
    have known := Registry.takerKnown (Registry.chosenFirst chosen).symm
    simp only [members, List.mem_cons, List.not_mem_nil, or_false] at known
    rcases known with rfl | rfl <;> cases answer
    · exact .inl (List.mem_singleton.mp member)
    · cases member

theorem circularFinite :
    {key | ∃ r, Reachable circular (circularAsked.map (·.request)) r ∧ r.key = key}.Finite := by
  refine (List.finite_toSet ([⟨"left", .null⟩, ⟨"right", .null⟩].map Request.key)).subset ?_
  rintro key ⟨r, reached, rfl⟩
  rcases circularReachable reached with rfl | rfl
  · exact List.mem_cons_self
  · exact List.mem_cons_of_mem _ List.mem_cons_self

theorem circularBounded : queue circular [.bare "left"] = .ok circularAsked ∧
    {key | ∃ r, Reachable circular (circularAsked.map (·.request)) r ∧ r.key = key}.Finite ∧
    ∃ turns outcome, Bounded circular [.bare "left"] circularAsked turns outcome := by
  have queued : queue circular [.bare "left"] = .ok circularAsked := rfl
  exact ⟨queued, circularFinite, expansionBounded queued circularFinite⟩

/- The bound is met: the two requests that come back to the first provider are taken too. -/
example : expand circular 3 circularAsked Table.empty = none ∧
    (expand circular 4 circularAsked Table.empty).map (·.map Table.keys) =
      some (.ok ["left::\x7b\x7d", "right::\x7b\x7d"]) := by
  constructor <;> rfl

end Sample

end Plan
end Codegen
