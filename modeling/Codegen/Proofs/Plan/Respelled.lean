import Codegen.Proofs.Plan.Sound
import Codegen.Proofs.Request.Spelling

/-! Plans and the two spellings of no parameters. As long as no hook tells them apart, the expansions of
two spellings of one registry and one list of targets go in lockstep, request by request. -/
namespace Codegen

structure Deferred.Respelled (d e : Deferred) : Prop where
  request : d.request.Respelled e.request
  requestedBy : d.requestedBy = e.requestedBy
  waiting : d.waiting = e.waiting

structure Registry.Respelled (registry other : Registry) : Prop where
  providers : List.Forall₂ Provider.Respelled registry.providers other.providers
  issued : List.Forall₂ Deferred.Respelled registry.issued other.issued

def Registry.Blind (registry : Registry) : Prop :=
  ∀ p ∈ registry.providers, p.Blind

structure Asked.Respelled (a b : Asked) : Prop where
  request : a.request.Respelled b.request
  requestedBy : a.requestedBy = b.requestedBy

structure Step.Respelled (s t : Step) : Prop where
  key : s.key = t.key
  provider : s.provider.Respelled t.provider
  request : s.request.Respelled t.request
  dependencies : s.dependencies = t.dependencies
  optional : s.optional = t.optional

def Plan.Respelled (plan other : Plan) : Prop :=
  List.Forall₂ Step.Respelled plan.steps other.steps

def RequestForm.Respelled (form other : RequestForm) : Prop :=
  Paired Request.Respelled (Provider.readForm form) (Provider.readForm other)

section Lists

variable {α β γ : Type} {R : α → β → Prop} {xs : List α} {ys : List β}

theorem foundPaired {f : α → Bool} {g : β → Bool} (each : List.Forall₂ R xs ys)
    (same : ∀ a b, R a b → f a = g b) : Option.Rel R (xs.find? f) (ys.find? g) := by
  induction each with
  | nil => exact .none
  | @cons a b xs ys head tail ih =>
    rw [List.find?_cons, List.find?_cons, same a b head]
    cases g b with
    | true => exact .some head
    | false => exact ih

theorem keptPaired {f : α → Bool} {g : β → Bool} (each : List.Forall₂ R xs ys)
    (same : ∀ a b, R a b → f a = g b) : List.Forall₂ R (xs.filter f) (ys.filter g) :=
  List.rel_filter (fun {a b} related => by simp only [same a b related]) each

theorem mappedSame {f : α → γ} {g : β → γ} (each : List.Forall₂ R xs ys)
    (same : ∀ a b, R a b → f a = g b) : xs.map f = ys.map g := by
  induction each with
  | nil => rfl
  | cons head _ ih => rw [List.map_cons, List.map_cons, same _ _ head, ih]

theorem offeredPaired (each : List.Forall₂ R xs ys) (places : List (Option γ)) :
    List.Forall₂ R (((xs.zip places).filter (·.2.isSome)).map (·.1))
      (((ys.zip places).filter (·.2.isSome)).map (·.1)) := by
  induction each generalizing places with
  | nil => exact .nil
  | cons head tail ih =>
    cases places with
    | nil => exact .nil
    | cons place places =>
      cases place with
      | none => exact ih places
      | some key => exact .cons head (ih places)

end Lists

namespace Registry

variable {registry other : Registry}
  (twins : List.Forall₂ Provider.Twin registry.providers other.providers)

include twins

theorem ofKindTwins (kind : String) :
    List.Forall₂ Provider.Twin (registry.ofKind kind) (other.ofKind kind) :=
  keptPaired twins fun _ _ twin => by rw [twin.respelled.kind]

theorem singletonTwins : List.Forall₂ Provider.Twin registry.singletons other.singletons :=
  keptPaired twins fun _ _ twin => twin.respelled.singleton

theorem checkedAlike : registry.checkSingletons = other.checkSingletons := by
  have sizes (kind : String) : (registry.ofKind kind).length = (other.ofKind kind).length :=
    (ofKindTwins twins kind).length_eq
  have first : Option.Rel Provider.Twin
      (registry.singletons.find? fun p => 1 < (registry.ofKind p.kind).length)
      (other.singletons.find? fun p => 1 < (other.ofKind p.kind).length) :=
    foundPaired (singletonTwins twins) fun p q twin => by rw [twin.respelled.kind, sizes]
  unfold checkSingletons
  generalize registry.singletons.find? _ = taken at first ⊢
  generalize other.singletons.find? _ = taken' at first ⊢
  cases first with
  | none => rfl
  | @some p q twin =>
    have names := mappedSame (ofKindTwins twins q.kind) fun _ _ twin => twin.respelled.name
    simp only [names, twin.respelled.kind]

theorem chosenAlike {r s : Request} (respelled : r.Respelled s) :
    Paired (Option.Rel Provider.Twin) (registry.choose r) (other.choose s) := by
  have found : Paired (List.Forall₂ Provider.Twin) (registry.candidates r) (other.candidates s) := by
    rw [candidates, candidates, respelled.kind]
    exact Paired.filter (ofKindTwins twins s.kind) fun _ _ twin =>
      Provider.twinAccepts twin respelled.params
  refine Paired.bind found fun ps qs each => ?_
  have names := mappedSame each fun _ _ twin => twin.respelled.name
  have single := mappedSame each fun _ _ twin => twin.respelled.singleton
  have singles : ps.any (·.singleton) = qs.any (·.singleton) := by
    simpa [List.any_map] using congrArg (List.any · id) single
  simp only [each.length_eq, singles, names, respelled.kind]
  split
  · exact .error _
  · cases each with
    | nil => exact .ok .none
    | cons head _ => exact .ok (.some head)

end Registry

namespace Plan

structure Expansion.Respelled (found other : Expansion) : Prop where
  step : found.step.Respelled other.step
  asked : List.Forall₂ Asked.Respelled found.asked other.asked

section Expanded

variable {registry other : Registry}
  (twins : List.Forall₂ Provider.Twin registry.providers other.providers)

include twins

theorem placeAlike (planned : List String) {r s : Request} (respelled : r.Respelled s) :
    Paired Eq (optionalPlace registry planned r) (optionalPlace other planned s) := by
  simp only [optionalPlace, Request.keyRespelled respelled]
  split
  · exact .ok rfl
  · refine Paired.bind (Registry.chosenAlike twins respelled) fun p q chosen => .ok ?_
    cases chosen <;> rfl

theorem expandedAlike (planned : List String) {a b : Asked} (respelled : a.Respelled b) :
    Paired Expansion.Respelled (expandOne registry planned a) (expandOne other planned b) := by
  have key := Request.keyRespelled respelled.request
  unfold expandOne
  refine Paired.bind (Registry.chosenAlike twins respelled.request) fun p q chosen => ?_
  cases chosen with
  | none =>
    simp only [respelled.request.kind, respelled.requestedBy]
    exact .notFound respelled.request.params
  | @some p q twin =>
    refine Paired.bind (Provider.twinRequired twin respelled.request.params) fun rs ss required => ?_
    refine Paired.bind (Provider.twinOptional twin respelled.request.params) fun os us optional => ?_
    have places : Paired (List.Forall₂ Eq)
        (os.mapM (optionalPlace registry (planned ++ [a.request.key])))
        (us.mapM (optionalPlace other (planned ++ [b.request.key]))) :=
      key ▸ Paired.each optional fun _ _ => placeAlike twins _
    refine Paired.bind places fun slots slots' equal => ?_
    cases (List.forall₂_eq_eq_eq ▸ equal : slots = slots')
    refine .ok ⟨⟨key, twin.respelled, respelled.request, ?_, rfl⟩, ?_⟩
    · exact mappedSame required fun _ _ => Request.keyRespelled
    · rw [List.forall₂_map_left_iff, List.forall₂_map_right_iff]
      exact (List.rel_append required (offeredPaired optional slots)).imp fun _ _ related =>
        ⟨related, twin.respelled.name⟩

end Expanded

def Filed (steps others : Table String Step) : Prop :=
  List.Forall₂ (fun entry entry' => entry.1 = entry'.1 ∧ entry.2.Respelled entry'.2)
    steps.entries others.entries

theorem filedEmpty : Filed Table.empty Table.empty :=
  .nil

section Filed

variable {steps others : Table String Step}

theorem filedKeys (filed : Filed steps others) : steps.keys = others.keys :=
  mappedSame filed fun _ _ related => related.1

theorem filedFind (filed : Filed steps others) (key : String) :
    Option.Rel Step.Respelled (steps.find? key) (others.find? key) := by
  have found := foundPaired (f := fun entry => decide (entry.1 = key))
    (g := fun entry => decide (entry.1 = key)) filed fun _ _ related => by rw [related.1]
  unfold Table.find?
  generalize steps.entries.find? _ = entry at found ⊢
  generalize others.entries.find? _ = entry' at found ⊢
  cases found with
  | none => exact .none
  | some related => exact .some related.2

theorem filedPut (filed : Filed steps others) {key : String} (fresh : key ∉ steps.keys) {s t : Step}
    (respelled : s.Respelled t) : Filed (steps.put key s) (others.put key t) := by
  have fresh' : key ∉ others.keys := filedKeys filed ▸ fresh
  rw [Filed, Table.entriesPutFresh fresh, Table.entriesPutFresh fresh']
  exact List.rel_append filed (.cons ⟨rfl, respelled⟩ .nil)

theorem filedGraph (filed : Filed steps others) : graph steps = graph others := by
  unfold graph
  generalize ({} : Graph) = g
  unfold Filed at filed
  generalize steps.entries = entries at filed ⊢
  generalize others.entries = entries' at filed ⊢
  induction filed generalizing g with
  | nil => rfl
  | @cons entry entry' _ _ head _ ih =>
    obtain ⟨key, respelled⟩ := head
    have labels : entry.2.describe = entry'.2.describe := Request.describeRespelled respelled.request
    have needs : entry.2.predecessors = entry'.2.predecessors := by
      rw [Step.predecessors, Step.predecessors, respelled.dependencies, respelled.optional]
    rw [List.foldl_cons, List.foldl_cons, key, labels, needs, ih]

end Filed

theorem arrangedAlike {steps others : Table String Step} (filed : Filed steps others) :
    Paired Respelled (arrange steps) (arrange others) := by
  rw [arrange, arrange, filedGraph filed]
  have listed (order : List String) : List.Forall₂ Step.Respelled (order.filterMap steps.find?)
      (order.filterMap others.find?) := by
    induction order with
    | nil => exact .nil
    | cons key rest ih =>
      rw [List.filterMap_cons, List.filterMap_cons]
      have found := filedFind filed key
      generalize steps.find? key = s at found ⊢
      generalize others.find? key = t at found ⊢
      cases found with
      | none => exact ih
      | some related => exact .cons related ih
  exact Paired.bind (Paired.same _) fun order _ same => .ok (same ▸ listed order)

section Resolved

variable {registry other : Registry}

theorem lockstep (twins : List.Forall₂ Provider.Twin registry.providers other.providers) (fuel : Nat)
    {queue queue' : List Asked} {steps others : Table String Step}
    (asked : List.Forall₂ Asked.Respelled queue queue') (filed : Filed steps others) :
    Option.Rel (Paired Filed) (expand registry fuel queue steps) (expand other fuel queue' others) := by
  induction fuel generalizing queue queue' steps others with
  | zero =>
    cases asked with
    | nil => exact .some (.ok filed)
    | cons => exact .none
  | succ fuel ih =>
    cases asked with
    | nil => exact .some (.ok filed)
    | @cons a b rest rest' head tail =>
      have key : a.request.key = b.request.key := Request.keyRespelled head.request
      have known : steps.contains a.request.key = others.contains b.request.key := by
        rw [Bool.eq_iff_iff, Table.containsKey, Table.containsKey, filedKeys filed, key]
      simp only [expand, known]
      split
      · exact ih tail filed
      · rename_i fresh
        have unknown : a.request.key ∉ steps.keys := by
          rw [filedKeys filed, key, ← Table.containsKey]
          exact fresh
        have expanded := expandedAlike twins steps.keys head
        rw [← filedKeys filed]
        generalize expandOne registry steps.keys a = found at expanded ⊢
        generalize expandOne other steps.keys b = found' at expanded ⊢
        cases expanded with
        | ok related =>
          refine ih (List.rel_append tail related.asked) ?_
          exact key ▸ filedPut filed unknown related.step
        | error e => exact .some (.error e)
        | notFound params => exact .some (.notFound params)

theorem queuedAlike (twins : List.Forall₂ Provider.Twin registry.providers other.providers)
    (issued : List.Forall₂ Deferred.Respelled registry.issued other.issued)
    {targets targets' : List RequestForm} (forms : List.Forall₂ RequestForm.Respelled targets targets') :
    Paired (List.Forall₂ Asked.Respelled) (queue registry targets) (queue other targets') := by
  have pending : List.Forall₂ Deferred.Respelled registry.pending other.pending :=
    keptPaired issued fun _ _ related => related.waiting
  rw [queue, queue, Registry.checkedAlike twins]
  refine Paired.bind (Paired.same _) fun _ _ _ => ?_
  refine Paired.bind (Paired.each forms fun _ _ => id) fun rs ss requests => .ok ?_
  refine List.rel_append (List.rel_append ?_ ?_) ?_
  all_goals rw [List.forall₂_map_left_iff, List.forall₂_map_right_iff]
  · exact requests.imp fun _ _ related => ⟨related, rfl⟩
  · exact pending.imp fun _ _ related => ⟨related.request, related.requestedBy⟩
  · exact (Registry.singletonTwins twins).imp fun _ _ twin =>
      ⟨⟨twin.respelled.kind, twin.respelled.singletonParams⟩, rfl⟩

/-- As long as no hook tells the spellings apart, one spelling is resolved as the other is: both run out of
requests to take, both are refused for one cause, or both give one plan. -/
theorem spellingsAlike (blind : registry.Blind) (respelled : registry.Respelled other)
    {targets targets' : List RequestForm} (forms : List.Forall₂ RequestForm.Respelled targets targets')
    (fuel : Nat) :
    Option.Rel (Paired Respelled) (resolveWithin fuel registry targets)
      (resolveWithin fuel other targets') := by
  have twins : List.Forall₂ Provider.Twin registry.providers other.providers :=
    ((List.forall₂_and_left _ _).mpr ⟨blind, respelled.providers⟩).imp fun _ _ both =>
      ⟨both.1, both.2⟩
  have queued := queuedAlike twins respelled.issued forms
  unfold resolveWithin
  generalize queue registry targets = asked at queued ⊢
  generalize queue other targets' = asked' at queued ⊢
  cases queued with
  | error e => exact .some (.error e)
  | notFound params => exact .some (.notFound params)
  | @ok asked asked' related =>
    have expanded := lockstep twins fuel related filedEmpty
    simp only
    generalize expand registry fuel asked Table.empty = steps at expanded ⊢
    generalize expand other fuel asked' Table.empty = others at expanded ⊢
    cases expanded with
    | none => exact .none
    | some paired => exact .some (Paired.bind paired fun _ _ => arrangedAlike)

end Resolved

/- The page, its requirements, the store and the requests that were issued are spelled out. -/
namespace Sample

def spelledPage : Provider :=
  { page with
    requires := fun _ => .ok [.pair [.text "row", .object []], .bare "row"]
    optionallyRequires := fun _ => .ok [.bare "cache", .pair [.text "store", .object []]] }

def spelledRow : Provider :=
  { row with requires := fun _ => .ok [.pair [.text "store", .object []]] }

def spelledStore : Provider :=
  { store with singletonParams := .object [] }

def spelledRegistry : Registry :=
  { providers := [spelledPage, refuser, spelledRow, spelledStore]
    issued := [⟨⟨"row", .object []⟩, "initial", true, none⟩, ⟨⟨"row", .null⟩, "test", true, none⟩,
      ⟨⟨"store", .object []⟩, "test", true, none⟩] }

def spelledPlan : Plan :=
  ⟨[⟨spelledStore, ⟨"store", .object []⟩, [], []⟩,
    ⟨spelledRow, ⟨"row", .object []⟩, ["store::\x7b\x7d"], []⟩,
    ⟨spelledPage, ⟨"page", .object []⟩, ["row::\x7b\x7d", "row::\x7b\x7d"],
      [none, some "store::\x7b\x7d"]⟩]⟩

theorem bareSpelled (kind : String) :
    RequestForm.Respelled (.bare kind) (.pair [.text kind, .object []]) :=
  .ok ⟨rfl, .filled⟩

theorem registryBlind : registry.Blind := by
  intro p member
  simp only [registry, List.mem_cons, List.not_mem_nil, or_false] at member
  rcases member with rfl | rfl | rfl | rfl
  all_goals
    refine ⟨rfl, .ok ?_, .ok ?_⟩
    all_goals exact List.forall₂_same.mpr fun r _ => r.respelledSame

theorem registrySpelled : registry.Respelled spelledRegistry := by
  have same (requests : List Request) : List.Forall₂ Request.Respelled requests requests :=
    List.forall₂_same.mpr fun r _ => r.respelledSame
  refine ⟨.cons ?_ (.cons ?_ (.cons ?_ (.cons ?_ .nil))), ?_⟩
  · exact ⟨rfl, rfl, rfl, .same _, fun _ => rfl,
      fun _ => .ok (.cons ⟨rfl, .filled⟩ (same _)),
      fun _ => .ok (.cons ⟨rfl, .same _⟩ (.cons ⟨rfl, .filled⟩ .nil))⟩
  · exact ⟨rfl, rfl, rfl, .same _, fun _ => rfl, fun _ => .ok .nil, fun _ => .ok .nil⟩
  · exact ⟨rfl, rfl, rfl, .same _, fun _ => rfl, fun _ => .ok (.cons ⟨rfl, .filled⟩ .nil),
      fun _ => .ok .nil⟩
  · exact ⟨rfl, rfl, rfl, .filled, fun _ => rfl, fun _ => .ok .nil, fun _ => .ok .nil⟩
  · exact .cons ⟨⟨rfl, .filled⟩, rfl, rfl⟩ (.cons ⟨⟨rfl, .same _⟩, rfl, rfl⟩
      (.cons ⟨⟨rfl, .filled⟩, rfl, rfl⟩ .nil))

theorem planSpelled : Resolves registry [.bare "page"] plan ∧
    Resolves spelledRegistry [.pair [.text "page", .object []]] spelledPlan ∧
    plan.Respelled spelledPlan := by
  have plain : resolveWithin 20 registry [.bare "page"] = some (.ok plan) := rfl
  have spelled : resolveWithin 20 spelledRegistry [.pair [.text "page", .object []]]
      = some (.ok spelledPlan) := by cbv
  have alike := spellingsAlike registryBlind registrySpelled (.cons (bareSpelled "page") .nil) 20
  rw [plain, spelled] at alike
  obtain ⟨related⟩ | _ := alike
  cases related with
  | ok related => exact ⟨⟨20, plain⟩, ⟨20, spelled⟩, related⟩

def particular : Provider :=
  { name := "types", kind := "types"
    accepts := fun params => .ok (params matches .object [])
    provide := fun _ _ => .done .null }

theorem spellingRefused : ¬ ∀ (registry other : Registry) (targets targets' : List RequestForm),
    registry.Respelled other → List.Forall₂ RequestForm.Respelled targets' targets →
    (∃ plan, Resolves registry targets plan) → ∃ plan, Resolves other targets' plan := by
  intro claim
  let registry : Registry := { providers := [particular] }
  have same : registry.Respelled registry :=
    ⟨.cons ⟨rfl, rfl, rfl, .same _, fun _ => rfl, fun _ => .ok .nil, fun _ => .ok .nil⟩ .nil, .nil⟩
  have resolved : ∃ plan, Resolves registry [.pair [.text "types", .object []]] plan :=
    ⟨⟨[⟨particular, ⟨"types", .object []⟩, [], []⟩]⟩, 5, by cbv⟩
  obtain ⟨plan, _, found⟩ := claim registry registry _ _ same (.cons (bareSpelled "types") .nil) resolved
  have refused : resolveWithin 5 registry [.bare "types"]
      = some (.error (.notFound "types" .null "initial")) := by cbv
  cases resolvedOnce found refused

end Sample
end Plan
end Codegen
