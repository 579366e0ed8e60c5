import Codegen.Proofs.Graph.Search

/-! Traversals that keep count. It is noted for each key who waits for it, and what the key itself still waits
for; both are found by going through sets of dependencies, each in the order in which it happens to be listed.
What is still waited for is at any time what was not settled yet, so that the same keys are settled in the
same order as without the notes. -/
namespace Codegen.Graph

structure Progress where
  remaining : Table String (List String)
  ready : List String
  order : List String

def enter (key : String) (waiters : Table String (List String)) (dependency : String) :
    Table String (List String) :=
  waiters.put dependency ((waiters.find? dependency).getD [] ++ [key])

def waiters (sets : List Waiting) : Table String (List String) :=
  sets.foldl (fun table set => set.2.foldl (enter set.1) table) Table.empty

namespace Progress

def start (sets : List Waiting) : Progress :=
  ⟨Table.ofList sets, (sets.filter (fun set => set.2.isEmpty)).map (·.1), []⟩

def left (p : Progress) (key : String) : List String :=
  (p.remaining.find? key).getD []

def discharge (key : String) (p : Progress) (waiter : String) : Progress :=
  let deps := (p.left waiter).filter (· ≠ key)
  { p with
    remaining := p.remaining.put waiter deps
    ready := if deps.isEmpty then p.ready ++ [waiter] else p.ready }

def settle (sets : List Waiting) (key : String) (rest : List String) (p : Progress) : Progress :=
  (((waiters sets).find? key).getD []).foldl (discharge key)
    { p with ready := rest, order := p.order ++ [key] }

def leftover (p : Progress) : List Waiting :=
  p.remaining.entries.filter (fun entry => entry.1 ∉ p.order)

end Progress

inductive Settles (sets : List Waiting) : Progress → Progress → Prop where
  | ends {p} (none : p.ready = []) : Settles sets p p
  | settles {p key rest last} (first : p.ready = key :: rest)
      (next : Settles sets (p.settle sets key rest) last) : Settles sets p last

inductive Traversed (sets : List Waiting) (labelOf : String → String) :
    Except Error (List String) → Prop where
  | ordered {last} (settles : Settles sets (Progress.start sets) last)
      (whole : sets.length ≤ last.order.length) : Traversed sets labelOf (.ok last.order)
  | circular {last} (settles : Settles sets (Progress.start sets) last)
      (fewer : last.order.length < sets.length) :
      Traversed sets labelOf (.error (.cyclic ((findCycle last.leftover).map labelOf)))

structure Distinct (sets : List Waiting) : Prop where
  keys : (sets.map Prod.fst).Nodup
  each : ∀ set ∈ sets, set.2.Nodup

section Waiters

variable {sets : List Waiting} {key : String}

theorem enteredFind {deps : List String} (distinct : deps.Nodup) (table : Table String (List String))
    (waiter : String) : ((deps.foldl (enter waiter) table).find? key).getD [] =
      (table.find? key).getD [] ++ if key ∈ deps then [waiter] else [] := by
  induction deps generalizing table with
  | nil => simp
  | cons d rest ih =>
    obtain ⟨fresh, distinct⟩ := List.nodup_cons.mp distinct
    rw [List.foldl_cons, ih distinct, enter, Table.findPut]
    by_cases same : key = d
    · subst same
      simp [fresh]
    · simp [same]

/- Sets are gone through key by key, so that those who wait for a key are noted in the order of the keys. -/
theorem waitersFind (each : ∀ set ∈ sets, set.2.Nodup) :
    ((waiters sets).find? key).getD [] = (sets.filter (fun set => key ∈ set.2)).map (·.1) := by
  induction sets using List.reverseRecOn with
  | nil => rfl
  | append_singleton sets set ih =>
    rw [List.forall_mem_append] at each
    have last : waiters (sets ++ [set]) = set.2.foldl (enter set.1) (waiters sets) := by
      rw [waiters, List.foldl_append]
      rfl
    rw [last, enteredFind (each.2 set (List.mem_singleton.mpr rfl)), ih each.1, List.filter_append,
      List.map_append]
    by_cases waits : key ∈ set.2 <;> simp [waits]

end Waiters

section Discharge

open Progress (discharge)

structure Discharged (key : String) (waiting : List String) (p q : Progress) : Prop where
  order : q.order = p.order
  keys : q.remaining.keys = p.remaining.keys
  left : ∀ other, q.left other =
    if other ∈ waiting then (p.left other).filter (· ≠ key) else p.left other
  ready : q.ready = p.ready ++ waiting.filter (fun w => ((p.left w).filter (· ≠ key)).isEmpty)

theorem leftDischarge (key : String) (p : Progress) (waiter other : String) :
    (discharge key p waiter).left other =
      if other = waiter then (p.left other).filter (· ≠ key) else p.left other := by
  rw [Progress.left, discharge, Table.findPut]
  split
  · rename_i same
    rw [same, Option.getD_some]
  · rfl

theorem dischargedAll (key : String) {waiting : List String} (distinct : waiting.Nodup) {p : Progress}
    (known : waiting ⊆ p.remaining.keys) : Discharged key waiting p (waiting.foldl (discharge key) p) := by
  induction waiting generalizing p with
  | nil => exact ⟨rfl, rfl, fun _ => rfl, by simp⟩
  | cons w rest ih =>
    obtain ⟨fresh, distinct⟩ := List.nodup_cons.mp distinct
    obtain ⟨first, known⟩ := List.cons_subset.mp known
    have keys : (discharge key p w).remaining.keys = p.remaining.keys := by
      rw [discharge, Table.keysPut, if_pos first]
    have later := ih distinct (keys ▸ known)
    have same : ∀ other ∈ rest, (discharge key p w).left other = p.left other := by
      intro other member
      have apart : other ≠ w := fun equal => fresh (equal ▸ member)
      rw [leftDischarge, if_neg apart]
    refine ⟨later.order, later.keys.trans keys, fun other => ?_, ?_⟩
    · rw [List.foldl_cons, later.left, leftDischarge]
      by_cases equal : other = w
      · simp [equal, fresh]
      · simp [equal]
    · have others := List.filter_congr fun other member =>
        congrArg (fun deps => (deps.filter (· ≠ key)).isEmpty) (same other member)
      have readied : (discharge key p w).ready =
          if ((p.left w).filter (· ≠ key)).isEmpty then p.ready ++ [w] else p.ready := rfl
      rw [List.foldl_cons, later.ready, others, readied, List.filter_cons]
      split
      · rw [List.append_assoc, List.singleton_append]
      · rfl

end Discharge

section Tally

variable {sets : List Waiting} {p q : Progress} {key : String}

theorem waitsMember (unique : (sets.map Prod.fst).Nodup) {dependency : String} :
    dependency ∈ waitsFor sets key ↔ Waits sets key dependency := by
  constructor
  · intro needed
    rw [waitsFor] at needed
    cases found : sets.find? (fun set => set.1 = key) with
    | none => simp [found] at needed
    | some set =>
      rw [found] at needed
      have same : set.1 = key := by simpa using List.find?_some found
      exact ⟨set.2, same ▸ List.mem_of_find?_eq_some found, needed⟩
  · rintro ⟨deps, held, needed⟩
    rwa [heldWaits unique held]

structure Tallied (sets : List Waiting) (p : Progress) : Prop where
  keys : p.remaining.keys = sets.map Prod.fst
  left : ∀ key, p.left key = (waitsFor sets key).filter (· ∉ p.order)

theorem talliedStart (unique : (sets.map Prod.fst).Nodup) : Tallied sets (Progress.start sets) := by
  have entries := Table.entriesOfList unique
  constructor
  · rw [Progress.start, Table.keys, entries]
  · intro key
    rw [Progress.left, Progress.start, Table.find?, entries, ← waitsFor]
    simp

structure Settled (sets : List Waiting) (key : String) (rest : List String) (p q : Progress) : Prop where
  tallied : Tallied sets q
  order : q.order = p.order ++ [key]
  ready : q.ready = rest ++ released sets (p.order ++ [key]) key

theorem settledNext (distinct : Distinct sets) (tallied : Tallied sets p) (key : String)
    (rest : List String) : Settled sets key rest p (p.settle sets key rest) := by
  have waiting : ((waiters sets).find? key).getD [] =
      (sets.filter (fun set => key ∈ set.2)).map (·.1) := waitersFind distinct.each
  have once : ((sets.filter (fun set => key ∈ set.2)).map (·.1)).Nodup :=
    distinct.keys.sublist (List.filter_sublist.map Prod.fst)
  have known : (sets.filter (fun set => key ∈ set.2)).map (·.1) ⊆ p.remaining.keys := by
    rw [tallied.keys]
    exact (List.filter_sublist.map Prod.fst).subset
  have done := dischargedAll key once (p := { p with ready := rest, order := p.order ++ [key] }) known
  rw [Progress.settle, waiting]
  refine ⟨⟨done.keys.trans tallied.keys, fun other => ?_⟩, done.order, ?_⟩
  · have before : ({ p with ready := rest, order := p.order ++ [key] } : Progress).left other =
        (waitsFor sets other).filter (· ∉ p.order) := tallied.left other
    rw [done.left, done.order, before]
    split
    · rw [List.filter_filter]
      refine List.filter_congr fun d _ => ?_
      simp [and_comm]
    · rename_i free
      refine List.filter_congr fun d needed => ?_
      have other : d ≠ key := by
        rintro rfl
        obtain ⟨deps, held, waits⟩ := (waitsMember distinct.keys).mp needed
        exact free (List.mem_map.mpr ⟨_, List.mem_filter.mpr ⟨held, by simpa using waits⟩, rfl⟩)
      simp [other]
  · rw [done.ready, released, List.filter_map, List.filter_filter]
    congr 2
    refine List.filter_congr fun set member => ?_
    have before : ({ p with ready := rest, order := p.order ++ [key] } : Progress).left set.1 =
        set.2.filter (· ∉ p.order) :=
      (tallied.left set.1).trans (by rw [heldWaits distinct.keys member])
    have freed : ((set.2.filter (· ∉ p.order)).filter (· ≠ key)).isEmpty =
        set.2.all (· ∈ p.order ++ [key]) := by
      rw [Bool.eq_iff_iff, List.isEmpty_iff, List.filter_filter, List.filter_eq_nil_iff, List.all_eq_true]
      refine forall₂_congr fun d _ => ?_
      simp only [Bool.and_eq_true, decide_eq_true_eq, List.mem_append, List.mem_singleton]
      tauto
    rw [Function.comp_apply, before, freed, Bool.eq_iff_iff]
    simp [and_comm]

end Tally

section Run

variable {sets : List Waiting} {p q r : Progress}

theorem settlesUnique (first : Settles sets p q) (second : Settles sets p r) : q = r := by
  induction first with
  | ends none =>
    cases second with
    | ends => rfl
    | settles first => rw [none] at first; cases first
  | settles first _ ih =>
    cases second with
    | ends none => rw [none] at first; cases first
    | settles again next =>
      rw [first] at again
      cases again
      exact ih next

/- No key is settled twice, so that none is ready any more when as many are settled as there are. -/
theorem settlesRun (distinct : Distinct sets) (tallied : Tallied sets p) (fuel : Nat)
    (settling : Settling sets p.ready p.order) (enough : sets.length ≤ fuel + p.order.length) :
    ∃ last, Settles sets p last ∧ Tallied sets last ∧
      last.order = settle sets fuel p.ready p.order := by
  induction fuel generalizing p with
  | zero =>
    refine ⟨p, .ends ?_, tallied, rfl⟩
    have fits := (List.subperm_of_subset settling.distinct settling.known).length_le
    rw [List.length_append, List.length_map] at fits
    exact List.length_eq_zero_iff.mp (by omega)
  | succ fuel ih =>
    cases ready : p.ready with
    | nil => exact ⟨p, .ends ready, tallied, rfl⟩
    | cons key rest =>
      have next := settledNext distinct tallied key rest
      rw [ready] at settling
      have further : Settling sets (p.settle sets key rest).ready (p.settle sets key rest).order := by
        rw [next.ready, next.order]
        exact settlingStep distinct.keys settling
      have room : sets.length ≤ fuel + (p.settle sets key rest).order.length := by
        rw [next.order, List.length_append, List.length_singleton]
        omega
      obtain ⟨last, run, counted, order⟩ := ih next.tallied further room
      refine ⟨last, .settles ready run, counted, ?_⟩
      rw [order, next.ready, next.order]
      rfl

def settledKeys (sets : List Waiting) : List String :=
  settle sets sets.length ((sets.filter (fun set => set.2.isEmpty)).map (·.1)) []

def unsettled (sets : List Waiting) (done : List String) : List Waiting :=
  (sets.filter (fun set => set.1 ∉ done)).map (fun set => (set.1, set.2.filter (· ∉ done)))

def outcomeOf (sets : List Waiting) (labelOf : String → String) : Except Error (List String) :=
  if (settledKeys sets).length < sets.length then
    .error (.cyclic ((findCycle (unsettled sets (settledKeys sets))).map labelOf))
  else .ok (settledKeys sets)

theorem leftoverTallied (distinct : Distinct sets) (tallied : Tallied sets p) :
    p.leftover = unsettled sets p.order := by
  have entries : p.remaining.entries = sets.map (fun set => (set.1, set.2.filter (· ∉ p.order))) := by
    rw [Table.entriesRead _ [], tallied.keys, List.map_map]
    refine List.map_congr_left fun set member => ?_
    have left := tallied.left set.1
    rw [heldWaits distinct.keys member] at left
    exact congrArg (Prod.mk set.1) left
  rw [Progress.leftover, entries, List.filter_map]
  rfl

theorem traversedSets (distinct : Distinct sets) (labelOf : String → String)
    (outcome : Except Error (List String)) :
    Traversed sets labelOf outcome ↔ outcome = outcomeOf sets labelOf := by
  obtain ⟨last, run, tallied, order⟩ := settlesRun distinct (talliedStart distinct.keys) sets.length
    (freeSettling distinct.keys) (Nat.le_add_right _ _)
  have done : last.order = settledKeys sets := order
  rw [outcomeOf, ← done, ← leftoverTallied distinct tallied]
  constructor
  · rintro (⟨settles, whole⟩ | ⟨settles, fewer⟩)
    · rw [settlesUnique settles run] at whole ⊢
      rw [if_neg (Nat.not_lt.mpr whole)]
    · rw [settlesUnique settles run] at fewer ⊢
      rw [if_pos fewer]
  · rintro rfl
    split
    · exact .circular run ‹_›
    · exact .ordered run (Nat.le_of_not_lt ‹_›)

end Run
end Codegen.Graph
