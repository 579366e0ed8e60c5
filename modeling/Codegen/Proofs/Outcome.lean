import Mathlib.Data.List.Forall2

/-! Sequences of steps of which each may fail. One that succeeds has succeeded in every step, and its
results stand in the order of the steps. -/
namespace Codegen.Outcome

variable {ε α β : Type}

theorem bindOk {x : Except ε α} {next : α → Except ε β} {result : β} :
    (x >>= next) = .ok result ↔ ∃ value, x = .ok value ∧ next value = .ok result := by
  cases x <;> simp [bind, Except.bind]

theorem bindSucceeds {x : Except ε α} {next : α → Except ε β} :
    (∃ result, (x >>= next) = .ok result) ↔
      ∃ value, x = .ok value ∧ ∃ result, next value = .ok result := by
  simp only [bindOk]
  exact ⟨fun ⟨result, value, first, last⟩ => ⟨value, first, result, last⟩,
    fun ⟨value, first, result, last⟩ => ⟨result, value, first, last⟩⟩

theorem bindError {x : Except ε α} {next : α → Except ε β} {e : ε} :
    (x >>= next) = .error e ↔ x = .error e ∨ ∃ value, x = .ok value ∧ next value = .error e := by
  cases x <;> simp [bind, Except.bind]

theorem mapOk {x : Except ε α} {f : α → β} {result : β} :
    x.map f = .ok result ↔ ∃ value, x = .ok value ∧ f value = result := by
  cases x <;> simp [Except.map]

theorem mapErrorOk {ε' : Type} {x : Except ε α} {f : ε → ε'} {result : α} :
    x.mapError f = .ok result ↔ x = .ok result := by
  cases x <;> simp [Except.mapError]

theorem optionOk {x : Except ε α} {result : α} : x.toOption = some result ↔ x = .ok result := by
  cases x <;> simp [Except.toOption]

theorem optionBind (x : Except ε α) (next : α → Except ε β) :
    (x >>= next).toOption = x.toOption.bind fun value => (next value).toOption := by
  cases x <;> rfl

theorem eachOk {f : α → Except ε β} {xs : List α} {ys : List β} :
    xs.mapM f = .ok ys ↔ List.Forall₂ (fun x y => f x = .ok y) xs ys := by
  induction xs generalizing ys with
  | nil => cases ys <;> simp [pure, Except.pure]
  | cons x rest ih =>
    rw [List.mapM_cons, bindOk]
    constructor
    · intro all
      obtain ⟨y, head, ok⟩ := all
      obtain ⟨others, tail, last⟩ := bindOk.mp ok
      cases last
      exact .cons head (ih.mp tail)
    · intro all
      rcases all with _ | ⟨head, tail⟩
      exact ⟨_, head, bindOk.mpr ⟨_, ih.mpr tail, rfl⟩⟩

theorem eachFound {R : α → β → Prop} {xs : List α} (found : ∀ x ∈ xs, ∃ y, R x y) :
    ∃ ys, List.Forall₂ R xs ys := by
  induction xs with
  | nil => exact ⟨[], .nil⟩
  | cons x rest ih =>
    obtain ⟨y, head⟩ := found x List.mem_cons_self
    obtain ⟨ys, tail⟩ := ih fun other member => found other (List.mem_cons_of_mem _ member)
    exact ⟨y :: ys, .cons head tail⟩

theorem eachPaired {R : α → β → Prop} {xs : List α} {ys : List β} (each : List.Forall₂ R xs ys) :
    ∀ x ∈ xs, ∃ y ∈ ys, R x y := by
  induction each with
  | nil => simp
  | cons head tail ih =>
    intro x member
    rcases List.mem_cons.mp member with rfl | inside
    · exact ⟨_, List.mem_cons_self, head⟩
    · obtain ⟨y, found, related⟩ := ih x inside
      exact ⟨y, List.mem_cons_of_mem _ found, related⟩

theorem eachSucceeds {f : α → Except ε β} {xs : List α} :
    (∃ ys, xs.mapM f = .ok ys) ↔ ∀ x ∈ xs, ∃ y, f x = .ok y := by
  simp only [eachOk]
  constructor
  · intro succeeds x member
    obtain ⟨ys, each⟩ := succeeds
    obtain ⟨y, _, ok⟩ := eachPaired each x member
    exact ⟨y, ok⟩
  · exact eachFound

theorem eachError {f : α → Except ε β} {xs : List α} {e : ε} (failed : xs.mapM f = .error e) :
    ∃ x ∈ xs, f x = .error e := by
  induction xs with
  | nil => cases failed
  | cons x rest ih =>
    rw [List.mapM_cons, bindError] at failed
    rcases failed with head | ⟨y, _, failed⟩
    · exact ⟨x, List.mem_cons_self, head⟩
    · rcases bindError.mp failed with tail | ⟨_, _, last⟩
      · obtain ⟨other, member, raised⟩ := ih tail
        exact ⟨other, List.mem_cons_of_mem _ member, raised⟩
      · cases last

def affirms : Except ε Bool → Bool
  | .ok answer => answer
  | .error _ => false

theorem filterAuxOk {test : α → Except ε Bool} {xs kept found : List α}
    (ok : xs.filterAuxM test kept = .ok found) :
    found = (xs.filter (fun x => affirms (test x))).reverse ++ kept := by
  induction xs generalizing kept with
  | nil => cases ok; rfl
  | cons x rest ih =>
    simp only [List.filterAuxM] at ok
    obtain ⟨answer, head, tail⟩ := bindOk.mp ok
    rw [ih tail]
    cases answer <;> simp [affirms, head]

theorem filterOk {test : α → Except ε Bool} {xs found : List α}
    (ok : xs.filterM test = .ok found) : found = xs.filter (fun x => affirms (test x)) := by
  obtain ⟨backwards, first, last⟩ := bindOk.mp ok
  cases last
  simp [filterAuxOk first]

theorem filterAuxError {test : α → Except ε Bool} {xs kept : List α} {e : ε}
    (failed : xs.filterAuxM test kept = .error e) : ∃ x ∈ xs, test x = .error e := by
  induction xs generalizing kept with
  | nil => cases failed
  | cons x rest ih =>
    simp only [List.filterAuxM] at failed
    rcases bindError.mp failed with head | ⟨_, _, tail⟩
    · exact ⟨x, List.mem_cons_self, head⟩
    · obtain ⟨other, member, raised⟩ := ih tail
      exact ⟨other, List.mem_cons_of_mem _ member, raised⟩

theorem filterError {test : α → Except ε Bool} {xs : List α} {e : ε}
    (failed : xs.filterM test = .error e) : ∃ x ∈ xs, test x = .error e := by
  rcases bindError.mp failed with inner | ⟨_, _, last⟩
  · exact filterAuxError inner
  · cases last

theorem filterAuxSucceeds {test : α → Except ε Bool} {xs : List α} (kept : List α)
    (answers : ∀ x ∈ xs, ∃ answer, test x = .ok answer) : ∃ found, xs.filterAuxM test kept = .ok found := by
  induction xs generalizing kept with
  | nil => exact ⟨kept, rfl⟩
  | cons x rest ih =>
    obtain ⟨answer, head⟩ := answers x List.mem_cons_self
    obtain ⟨found, tail⟩ := ih (cond answer (x :: kept) kept) fun other member =>
      answers other (List.mem_cons_of_mem _ member)
    exact ⟨found, bindOk.mpr ⟨answer, head, tail⟩⟩

theorem filterSucceeds {test : α → Except ε Bool} {xs : List α}
    (answers : ∀ x ∈ xs, ∃ answer, test x = .ok answer) : ∃ found, xs.filterM test = .ok found := by
  obtain ⟨backwards, found⟩ := filterAuxSucceeds [] answers
  exact ⟨backwards.reverse, bindOk.mpr ⟨backwards, found, rfl⟩⟩

end Codegen.Outcome
