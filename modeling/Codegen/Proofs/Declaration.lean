import Codegen.Proofs.Graph.Traversal
import Codegen.Proofs.Outcome
import Codegen.Provider
import Mathlib.Data.List.Find

/-! What the declarations of providers come to. A capability that is declared under two names is a conflict,
before all else; then a need that nobody declares is reported, the first one; then needs that form a cycle.
Where nothing of this is found, all declarations are given back. -/
namespace Codegen.Declaration

def capabilities (claims : List Claimed) : List String :=
  claims.map (·.declaration.capability)

def Disputed (claims : List Claimed) : Prop :=
  ∃ c ∈ claims, ∃ d ∈ claims, c.declaration.capability = d.declaration.capability ∧ c.plugin ≠ d.plugin

def needs (claims : List Claimed) : List (String × String) :=
  claims.flatMap (fun c => c.declaration.dependsOn.map (·, c.plugin))

def firstLacking (claims : List Claimed) : Option (String × String) :=
  (needs claims).find? (fun need => need.1 ∉ capabilities claims)

def Depends (claims : List Claimed) (capability need : String) : Prop :=
  ∃ c ∈ claims, c.declaration.capability = capability ∧ need ∈ c.declaration.dependsOn

def Cyclic (claims : List Claimed) : Prop :=
  ∃ capability, Relation.TransGen (Depends claims) capability capability

structure Judged (claims : List Claimed) (outcome : Except Error (List Declaration)) : Prop where
  disputed : (∃ capability plugins file, outcome = .error (.symbolConflict capability plugins file)) ↔
    Disputed claims
  opponents : ∀ capability plugins file, outcome = .error (.symbolConflict capability plugins file) →
    ∃ c ∈ claims, ∃ d ∈ claims, c.declaration.capability = capability ∧
      d.declaration.capability = capability ∧ c.plugin ≠ d.plugin ∧ plugins = [c.plugin, d.plugin] ∧
      file = none
  lacking : ¬Disputed claims → ((∃ kind params plugin, outcome = .error (.notFound kind params plugin)) ↔
    ∃ need ∈ needs claims, need.1 ∉ capabilities claims)
  first : ∀ kind params plugin, outcome = .error (.notFound kind params plugin) →
    params = .null ∧ firstLacking claims = some (kind, plugin)
  cyclic : ¬Disputed claims → (∀ need ∈ needs claims, need.1 ∈ capabilities claims) →
    ((∃ cycle, outcome = .error (.cyclic cycle)) ↔ Cyclic claims)
  circle : ∀ cycle, outcome = .error (.cyclic cycle) → Graph.Circle (Depends claims) cycle
  complete : ¬Disputed claims → (∀ need ∈ needs claims, need.1 ∈ capabilities claims) → ¬Cyclic claims →
    outcome = .ok (claims.map (·.declaration))

section Owners

variable {claims : List Claimed} {owners next : Table String String} {c : Claimed}

def Owned (claims : List Claimed) (owners : Table String String) : Prop :=
  ∀ capability plugin, owners.find? capability = some plugin ↔
    ∃ c ∈ claims, c.declaration.capability = capability ∧ c.plugin = plugin

theorem ownedNone : Owned [] Table.empty := by
  intro capability plugin
  exact iff_of_false (fun found => by cases found) (fun ⟨_, member, _⟩ => by cases member)

theorem ownedUndisputed (owned : Owned claims owners) : ¬Disputed claims := by
  rintro ⟨c, first, d, second, same, other⟩
  have left := (owned c.declaration.capability c.plugin).mpr ⟨c, first, rfl, rfl⟩
  have right := (owned c.declaration.capability d.plugin).mpr ⟨d, second, same.symm, rfl⟩
  exact other (Option.some.inj (left.symm.trans right))

theorem ownedCapability (owned : Owned claims owners) (capability : String) :
    owners.contains capability = true ↔ capability ∈ capabilities claims := by
  rw [Table.containsKey, Table.keyFound, capabilities, List.mem_map]
  constructor
  · rintro ⟨plugin, found⟩
    obtain ⟨c, member, same, _⟩ := (owned capability plugin).mp found
    exact ⟨c, member, same⟩
  · rintro ⟨c, member, same⟩
    exact ⟨c.plugin, (owned capability c.plugin).mpr ⟨c, member, same, rfl⟩⟩

theorem claimCases (owners : Table String String) (c : Claimed) :
    (owners.find? c.declaration.capability = none ∧
      claim owners c = .ok (owners.put c.declaration.capability c.plugin)) ∨
    (owners.find? c.declaration.capability = some c.plugin ∧ claim owners c = .ok owners) ∨
    ∃ owner, owners.find? c.declaration.capability = some owner ∧ owner ≠ c.plugin ∧
      claim owners c = .error (.symbolConflict c.declaration.capability [owner, c.plugin] none) := by
  simp only [claim]
  cases owners.find? c.declaration.capability with
  | none => exact .inl ⟨rfl, rfl⟩
  | some owner =>
    by_cases same : owner = c.plugin
    · exact .inr (.inl ⟨congrArg some same, if_pos same⟩)
    · exact .inr (.inr ⟨owner, rfl, same, if_neg same⟩)

theorem ownedClaimed (owned : Owned claims owners) (ok : claim owners c = .ok next) :
    Owned (claims ++ [c]) next := by
  intro capability plugin
  have more : (∃ d ∈ claims ++ [c], d.declaration.capability = capability ∧ d.plugin = plugin) ↔
      owners.find? capability = some plugin ∨ c.declaration.capability = capability ∧ c.plugin = plugin := by
    rw [owned]
    simp [or_and_right, exists_or]
  rw [more]
  rcases claimCases owners c with ⟨free, taken⟩ | ⟨held, taken⟩ | ⟨_, _, _, refused⟩
  · cases taken.symm.trans ok
    rw [Table.findPut]
    split
    · rename_i same
      simp [same, free]
    · rename_i other
      simp [Ne.symm other]
  · cases taken.symm.trans ok
    refine ⟨.inl, ?_⟩
    rintro (known | ⟨rfl, rfl⟩)
    · exact known
    · exact held
  · cases refused.symm.trans ok

theorem claimsDecided (owned : Owned claims owners) (more : List Claimed) :
    (∃ final, more.foldlM claim owners = .ok final ∧ Owned (claims ++ more) final) ∨
    ∃ c ∈ claims ++ more, ∃ d ∈ claims ++ more, c.declaration.capability = d.declaration.capability ∧
      c.plugin ≠ d.plugin ∧ more.foldlM claim owners =
        .error (.symbolConflict c.declaration.capability [c.plugin, d.plugin] none) := by
  induction more generalizing claims owners with
  | nil => exact .inl ⟨owners, rfl, by rwa [List.append_nil]⟩
  | cons d rest ih =>
    rw [List.foldlM_cons]
    cases head : claim owners d with
    | ok next =>
      have later := ih (ownedClaimed owned head)
      rwa [List.append_assoc, List.singleton_append] at later
    | error e =>
      rcases claimCases owners d with ⟨_, taken⟩ | ⟨_, taken⟩ | ⟨owner, held, other, refused⟩
      · cases taken.symm.trans head
      · cases taken.symm.trans head
      · cases refused.symm.trans head
        obtain ⟨c, member, same, rfl⟩ := (owned _ _).mp held
        exact .inr ⟨c, by simp [member], d, by simp, same, other, by rw [same]; rfl⟩

end Owners

section Needs

variable {claims : List Claimed}

def addition (c : Claimed) : Graph.Addition :=
  ⟨c.declaration.capability, c.declaration.capability, c.declaration.dependsOn⟩

theorem needsGathered (owners : Table String String) (claims : List Claimed) (before : List Graph.Addition) :
    claims.foldlM (addNeeds owners) (Graph.build before) =
      match (needs claims).find? (fun need => !owners.contains need.1) with
      | some need => .error (.notFound need.1 .null need.2)
      | none => .ok (Graph.build (before ++ claims.map addition)) := by
  induction claims generalizing before with
  | nil => simp [needs, pure, Except.pure]
  | cons c rest ih =>
    have split : needs (c :: rest) = c.declaration.dependsOn.map (·, c.plugin) ++ needs rest := rfl
    have own : (c.declaration.dependsOn.map (·, c.plugin)).find? (fun need => !owners.contains need.1) =
        (c.declaration.dependsOn.find? (fun need => !owners.contains need)).map (·, c.plugin) :=
      List.find?_map ..
    rw [List.foldlM_cons, split, List.find?_append, own, addNeeds]
    cases c.declaration.dependsOn.find? (fun need => !owners.contains need) with
    | some need => rfl
    | none =>
      have added := Graph.buildSnoc before (addition c)
      have next := ih (before ++ [addition c])
      rw [added, List.append_assoc] at next
      exact next

theorem lackingFound : (∃ need, firstLacking claims = some need) ↔
    ∃ need ∈ needs claims, need.1 ∉ capabilities claims := by
  rw [← Option.isSome_iff_exists, firstLacking, List.find?_isSome]
  simp only [decide_eq_true_eq]

theorem lackingNone : firstLacking claims = none ↔ ∀ need ∈ needs claims, need.1 ∈ capabilities claims := by
  rw [firstLacking, List.find?_eq_none]
  simp only [decide_eq_true_eq, not_not]

theorem dependsNeeded {capability need : String} (depends : Depends claims capability need) :
    ∃ plugin, (need, plugin) ∈ needs claims := by
  obtain ⟨c, member, _, needed⟩ := depends
  exact ⟨c.plugin, List.mem_flatMap.mpr ⟨c, member, List.mem_map.mpr ⟨need, needed, rfl⟩⟩⟩

/- Where every need is declared, the graph has all of them. -/
theorem needsDepends (supplied : ∀ need ∈ needs claims, need.1 ∈ capabilities claims) :
    Graph.Needs (claims.map addition) = Depends claims := by
  have keys : (claims.map addition).map Graph.Addition.key = capabilities claims := by
    rw [List.map_map]
    rfl
  have declares (capability need : String) :
      Graph.Declares (claims.map addition) capability need ↔ Depends claims capability need := by
    simp [Graph.Declares, Depends, addition]
  funext capability need
  rw [Graph.Needs, keys, declares, eq_iff_iff, and_iff_left_iff_imp]
  intro depends
  obtain ⟨plugin, member⟩ := dependsNeeded depends
  exact supplied _ member

theorem labelledSame {cycle labels : List String}
    (labelled : List.Forall₂ (Graph.Labelled (claims.map addition)) cycle labels) : labels = cycle := by
  have same : List.Forall₂ Eq cycle labels := labelled.imp fun key label => by
    rintro ⟨before, dependencies, after, split, _⟩
    have member : ⟨key, label, dependencies⟩ ∈ claims.map addition := by simp [split]
    obtain ⟨c, _, whole⟩ := List.mem_map.mp member
    cases whole
    rfl
  rw [List.forall₂_eq_eq_eq] at same
  exact same.symm

end Needs

section Check

variable {claims : List Claimed}

inductive Verdict (claims : List Claimed) : Except Error (List Declaration) → Prop where
  | disputed {c d} (first : c ∈ claims) (second : d ∈ claims)
      (same : c.declaration.capability = d.declaration.capability) (other : c.plugin ≠ d.plugin) :
      Verdict claims (.error (.symbolConflict c.declaration.capability [c.plugin, d.plugin] none))
  | lacking {need plugin} (agreed : ¬Disputed claims) (first : firstLacking claims = some (need, plugin)) :
      Verdict claims (.error (.notFound need .null plugin))
  | cyclic {cycle} (agreed : ¬Disputed claims) (supplied : firstLacking claims = none)
      (circle : Graph.Circle (Depends claims) cycle) : Verdict claims (.error (.cyclic cycle))
  | complete (agreed : ¬Disputed claims) (supplied : firstLacking claims = none)
      (acyclic : ¬Cyclic claims) : Verdict claims (.ok (claims.map (·.declaration)))

theorem suppliedVerdict (agreed : ¬Disputed claims) (supplied : firstLacking claims = none) :
    Verdict claims (do
      let _ ← (Graph.build (claims.map addition)).traverse
      .ok (claims.map (·.declaration))) := by
  have same := needsDepends (lackingNone.mp supplied)
  rcases Graph.traverseEnds (claims.map addition) with ⟨order, ok⟩ | ⟨cycle, labels, failed, trapped⟩
  · rw [ok]
    refine .complete agreed supplied ?_
    rintro ⟨capability, back⟩
    rw [← same] at back
    exact Graph.orderedAcyclic (Graph.traversedDistinct ok) (Graph.traversedOrdered ok) capability back
  · rw [failed, labelledSame trapped.labelled]
    exact .cyclic agreed supplied (same ▸ trapped.circle)

theorem checkVerdict (claims : List Claimed) : Verdict claims (check claims) := by
  unfold check
  rcases claimsDecided ownedNone claims with ⟨owners, ok, owned⟩ | ⟨c, first, d, second, same, other, failed⟩
  · have agreed := ownedUndisputed owned
    have lacking : (needs claims).find? (fun need => !owners.contains need.1) = firstLacking claims := by
      refine List.find?_congr fun need _ => ?_
      rw [Bool.eq_iff_iff, Bool.not_eq_true', ← Bool.not_eq_true, ownedCapability owned, decide_eq_true_eq]
      rfl
    have gathered : claims.foldlM (addNeeds owners) {} = _ := needsGathered owners claims []
    rw [ok]
    change Verdict claims (claims.foldlM (addNeeds owners) {} >>= _)
    rw [gathered, lacking]
    cases first : firstLacking claims with
    | some need => exact .lacking agreed first
    | none => exact suppliedVerdict agreed first
  · rw [failed]
    exact .disputed first second same other

end Check

theorem verdictJudged {claims : List Claimed} {outcome : Except Error (List Declaration)}
    (verdict : Verdict claims outcome) : Judged claims outcome where
  disputed := by
    cases verdict with
    | disputed first second same other =>
      exact iff_of_true ⟨_, _, _, rfl⟩ ⟨_, first, _, second, same, other⟩
    | lacking agreed | cyclic agreed | complete agreed => exact iff_of_false (by simp) agreed
  opponents := by
    rintro _ _ _ rfl
    cases verdict with
    | disputed first second same other => exact ⟨_, first, _, second, rfl, same.symm, other, rfl, rfl⟩
  lacking := by
    intro agreed
    rw [← lackingFound]
    cases verdict with
    | disputed first second same other => exact absurd ⟨_, first, _, second, same, other⟩ agreed
    | lacking _ first => exact iff_of_true ⟨_, _, _, rfl⟩ ⟨_, first⟩
    | cyclic _ supplied | complete _ supplied => exact iff_of_false (by simp) (by simp [supplied])
  first := by
    rintro _ _ _ rfl
    cases verdict with
    | lacking _ first => exact ⟨rfl, first⟩
  cyclic := by
    intro agreed supplied
    rw [← lackingNone] at supplied
    cases verdict with
    | disputed first second same other => exact absurd ⟨_, first, _, second, same, other⟩ agreed
    | lacking _ first => simp [supplied] at first
    | cyclic _ _ circle => exact iff_of_true ⟨_, rfl⟩ (Graph.circleReturns circle)
    | complete _ _ acyclic => exact iff_of_false (by simp) acyclic
  circle := by
    rintro _ rfl
    cases verdict with
    | cyclic _ _ circle => exact circle
  complete := by
    intro agreed supplied acyclic
    rw [← lackingNone] at supplied
    cases verdict with
    | disputed first second same other => exact absurd ⟨_, first, _, second, same, other⟩ agreed
    | lacking _ first => simp [supplied] at first
    | cyclic _ _ circle => exact absurd (Graph.circleReturns circle) acyclic
    | complete => rfl

theorem declarationsJudged (providers : List Provider) :
    Judged (providers.flatMap Provider.claims) (checkDeclarations providers) ∧
      (providers.flatMap Provider.claims).map (·.declaration) = providers.flatMap (·.declares) := by
  refine ⟨verdictJudged (checkVerdict _), ?_⟩
  rw [List.map_flatMap]
  refine List.flatMap_congr fun p _ => ?_
  rw [Provider.claims, List.map_map]
  exact List.map_id' _

/- The second declaration of a capability adds the need that closes the cycle. -/
example : check [⟨⟨"x", "x", ["y"]⟩, "a"⟩, ⟨⟨"y", "y", []⟩, "b"⟩, ⟨⟨"again", "y", ["x"]⟩, "b"⟩] =
    .error (.cyclic ["x", "y", "x"]) := by cbv

end Codegen.Declaration
