import Codegen.Proofs.Graph.Complete
import Mathlib.Data.List.Chain

/-! The search for a cycle among keys that wait for each other. A search reads what a key waits for only
where the key is present. Where every key waits for another one that is present, the first way down never
turns back: it comes upon one of its own keys, and the search ends with a cycle. -/
namespace Codegen.Graph

/-- A walk in depth through the keys `todo`, all of them reached from the last key of a path, which is
given backwards. A key is entered only if it is present; there is no case for one that is not. -/
inductive Search (waiting : List Waiting) : (path todo visited : List String) → Walk → Prop where
  | done {path visited} : Search waiting path [] visited (.clear visited)
  | closes {path key rest visited} (onPath : key ∈ path) :
      Search waiting path (key :: rest) visited (.cycle (closing path key))
  | skips {path key rest visited found} (offPath : key ∉ path) (known : key ∈ visited)
      (next : Search waiting path rest visited found) : Search waiting path (key :: rest) visited found
  | descends {path key rest visited deps keys} (offPath : key ∉ path) (unseen : key ∉ visited)
      (held : (key, deps) ∈ waiting)
      (below : Search waiting (key :: path) (Text.sorted deps) visited (.cycle keys)) :
      Search waiting path (key :: rest) visited (.cycle keys)
  | returns {path key rest visited deps seen found} (offPath : key ∉ path) (unseen : key ∉ visited)
      (held : (key, deps) ∈ waiting)
      (below : Search waiting (key :: path) (Text.sorted deps) visited (.clear seen))
      (next : Search waiting path rest (key :: seen) found) :
      Search waiting path (key :: rest) visited found

structure Simple (waiting : List Waiting) (path : List String) : Prop where
  distinct : path.Nodup
  present : path ⊆ waiting.map Prod.fst

def Waits (waiting : List Waiting) (key dependency : String) : Prop :=
  ∃ deps, (key, deps) ∈ waiting ∧ dependency ∈ deps

structure Stuck (waiting : List Waiting) : Prop where
  blocked : ∀ entry ∈ waiting, entry.2 ≠ []
  closed : ∀ entry ∈ waiting, entry.2 ⊆ waiting.map Prod.fst

def Circle (R : String → String → Prop) (keys : List String) : Prop :=
  ∃ first rest, keys = first :: rest ++ [first] ∧ (first :: rest).Nodup ∧ keys.IsChain R

section Paths

variable {waiting : List Waiting} {path deps : List String} {key : String}

theorem simpleLength (simple : Simple waiting path) : path.length ≤ waiting.length := by
  simpa using (List.subperm_of_subset simple.distinct simple.present).length_le

theorem simpleDeeper (simple : Simple waiting path) (offPath : key ∉ path)
    (held : (key, deps) ∈ waiting) : Simple waiting (key :: path) :=
  ⟨List.nodup_cons.mpr ⟨offPath, simple.distinct⟩,
    List.cons_subset.mpr ⟨List.mem_map.mpr ⟨_, held, rfl⟩, simple.present⟩⟩

/- No path holds a key twice, so that the keys off the path bound how deep a walk still goes. -/
theorem fuelLeft (simple : Simple waiting (key :: path)) {fuel : Nat}
    (enough : waiting.length ≤ fuel + path.length) :
    ∃ less, fuel = less + 1 ∧ waiting.length ≤ less + (key :: path).length := by
  have longer := simpleLength simple
  rw [List.length_cons] at longer ⊢
  exact ⟨fuel - 1, by omega, by omega⟩

theorem heldWaits (unique : (waiting.map Prod.fst).Nodup) (held : (key, deps) ∈ waiting) :
    waitsFor waiting key = deps := by
  have found : (⟨waiting, unique⟩ : Table String (List String)).find? key = some deps :=
    Table.findPresent.mpr held
  rw [Table.find?] at found
  rw [waitsFor, found, Option.getD_some]

theorem foundCycle (walk : String → List String → Walk) (path keys todo : List String) :
    todo.foldl (proceed walk path) (.cycle keys) = .cycle keys := by
  induction todo with
  | nil => rfl
  | cons key rest ih => exact ih

theorem searchFound (unique : (waiting.map Prod.fst).Nodup) {todo visited : List String} {found : Walk}
    (search : Search waiting path todo visited found) {fuel : Nat} (simple : Simple waiting path)
    (enough : waiting.length ≤ fuel + path.length) :
    todo.foldl (proceed (walkFrom waiting fuel path) path) (.clear visited) = found := by
  induction search generalizing fuel with
  | done => rfl
  | closes onPath => rw [List.foldl_cons, proceed, if_pos onPath, foundCycle]
  | skips offPath known _ ih =>
    rw [List.foldl_cons, proceed, if_neg offPath, if_pos known]
    exact ih simple enough
  | descends offPath unseen held _ ih =>
    have longer := simpleDeeper simple offPath held
    obtain ⟨less, rfl, deeper⟩ := fuelLeft longer enough
    rw [List.foldl_cons, proceed, if_neg offPath, if_neg unseen, walkFrom]
    simp only [heldWaits unique held, ih longer deeper, foundCycle]
  | returns offPath unseen held _ _ below next =>
    have longer := simpleDeeper simple offPath held
    obtain ⟨less, rfl, deeper⟩ := fuelLeft longer enough
    rw [List.foldl_cons, proceed, if_neg offPath, if_neg unseen, walkFrom]
    simp only [heldWaits unique held, below longer deeper]
    exact next simple enough

end Paths

section Cycles

variable {waiting : List Waiting} {path deps : List String} {key : String}

/- The path forwards, with the key at its end, is the way that led to the key; the circle is its part
from the first place of the key on. -/
theorem closingCircle {R : String → String → Prop} (distinct : path.Nodup)
    (chain : (key :: path).IsChain (fun later earlier => R earlier later)) (onPath : key ∈ path) :
    Circle R (closing path key) := by
  obtain ⟨before, after, split⟩ := List.append_of_mem (List.mem_reverse.mpr onPath)
  have forwards : (path.reverse ++ [key]).IsChain R := by
    rw [← List.reverse_cons, List.isChain_reverse]
    exact chain
  have apart : (before ++ key :: after).Nodup := split ▸ List.nodup_reverse.mpr distinct
  have unmet : ∀ other ∈ before, decide (other ≠ key) = true := fun other member =>
    decide_eq_true ((List.nodup_append.mp apart).2.2 other member key List.mem_cons_self)
  have closed : closing path key = key :: after ++ [key] := by
    rw [closing, split, List.dropWhile_append_of_pos unmet, List.dropWhile_cons_of_neg (by simp)]
  rw [closed]
  refine ⟨key, after, rfl, (List.nodup_append.mp apart).2.1, ?_⟩
  rw [split, List.append_assoc] at forwards
  exact forwards.right_of_append

theorem circleReturns {R : String → String → Prop} {keys : List String} (circle : Circle R keys) :
    ∃ key, Relation.TransGen R key key := by
  obtain ⟨first, rest, rfl, _, chain⟩ := circle
  have tail : first :: rest ++ [first] = first :: (rest ++ [first]) := rfl
  cases rest with
  | nil => exact ⟨first, .single (List.isChain_pair.mp chain)⟩
  | cons second rest =>
    obtain ⟨step, more⟩ := List.isChain_cons_cons.mp chain
    exact ⟨first, .head' step (List.relationReflTransGen_of_exists_isChain_cons _ more (by simp))⟩

theorem circleWithin {R S : String → String → Prop} {keys : List String} (circle : Circle R keys)
    (within : ∀ key dependency, R key dependency → S key dependency) : Circle S keys := by
  obtain ⟨first, rest, whole, distinct, chain⟩ := circle
  exact ⟨first, rest, whole, distinct, chain.imp fun key dependency => within key dependency⟩

theorem chainEntered {R : String → String → Prop} {first : String} {rest : List String}
    (chain : (first :: rest).IsChain R) : ∀ key ∈ rest, ∃ before, R before key := by
  induction rest generalizing first with
  | nil => simp
  | cons second rest ih =>
    obtain ⟨step, more⟩ := List.isChain_cons_cons.mp chain
    exact List.forall_mem_cons.mpr ⟨⟨first, step⟩, ih more⟩

theorem circleEntered {R : String → String → Prop} {keys : List String} (circle : Circle R keys) :
    ∀ key ∈ keys, ∃ before, R before key := by
  obtain ⟨first, rest, rfl, _, chain⟩ := circle
  have entered := chainEntered chain
  exact List.forall_mem_cons.mpr ⟨entered first (by simp), entered⟩

theorem stuckCloses (stuck : Stuck waiting) {left : Nat} (simple : Simple waiting (key :: path))
    (chain : (key :: path).IsChain (fun later earlier => Waits waiting earlier later))
    (held : (key, deps) ∈ waiting) (enough : waiting.length ≤ left + path.length) :
    ∃ keys, Search waiting (key :: path) (Text.sorted deps) [] (.cycle keys) ∧
      Circle (Waits waiting) keys := by
  induction left generalizing path key deps with
  | zero =>
    obtain ⟨_, none, _⟩ := fuelLeft simple enough
    cases none
  | succ left ih =>
    obtain ⟨next, rest, listed⟩ : ∃ next rest, Text.sorted deps = next :: rest := by
      refine List.exists_cons_of_ne_nil fun none => stuck.blocked _ held ?_
      exact List.nil_perm.mp (none ▸ List.mergeSort_perm deps Text.precedes)
    have needed : next ∈ deps := List.mem_mergeSort.mp (listed ▸ List.mem_cons_self)
    have longer : (next :: key :: path).IsChain (fun later earlier => Waits waiting earlier later) :=
      List.isChain_cons_cons.mpr ⟨⟨deps, held, needed⟩, chain⟩
    rw [listed]
    by_cases onPath : next ∈ key :: path
    · exact ⟨_, .closes onPath, closingCircle simple.distinct longer onPath⟩
    · obtain ⟨⟨_, more⟩, inside, rfl⟩ := List.mem_map.mp (stuck.closed _ held needed)
      have further := simpleDeeper simple onPath inside
      obtain ⟨keys, below, circle⟩ := ih further longer inside (by rw [List.length_cons]; omega)
      exact ⟨keys, .descends onPath List.not_mem_nil inside below, circle⟩

theorem stuckCycle (stuck : Stuck waiting) (unique : (waiting.map Prod.fst).Nodup)
    (some : waiting ≠ []) :
    Search waiting [] (waiting.map Prod.fst) [] (.cycle (findCycle waiting)) ∧
      Circle (Waits waiting) (findCycle waiting) := by
  obtain ⟨⟨key, deps⟩, rest, rfl⟩ := List.exists_cons_of_ne_nil some
  generalize whole : (key, deps) :: rest = waiting at *
  have held : (key, deps) ∈ waiting := by simp [← whole]
  have empty : Simple waiting [] := ⟨List.nodup_nil, List.nil_subset _⟩
  have first := simpleDeeper empty List.not_mem_nil held
  have room : waiting.length ≤ waiting.length + ([] : List String).length := Nat.le_refl _
  have more : waiting.length ≤ waiting.length + 1 + ([] : List String).length := Nat.le_succ _
  obtain ⟨keys, below, circle⟩ := stuckCloses stuck first (List.isChain_singleton _) held room
  have search : Search waiting [] (waiting.map Prod.fst) [] (.cycle keys) := by
    rw [← whole, List.map_cons, whole]
    exact .descends List.not_mem_nil List.not_mem_nil held below
  have same : findCycle waiting = keys := by
    have found := searchFound unique search empty more
    simp only [findCycle]
    rw [found]
  rw [same]
  exact ⟨search, circle⟩

end Cycles
end Codegen.Graph
