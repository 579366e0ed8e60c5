import Codegen.Proofs.Table
import Codegen.Symbol.Registry

/-! Collisions of names. A name in a file collides if plugins that differ registered symbols of that name
for that file; the registry lists exactly the names that do. -/
namespace Codegen.SymbolRegistry

def Colliding (registrations : List Registration) : Prop :=
  ∃ r ∈ registrations, ∃ q ∈ registrations,
    r.symbol.file = q.symbol.file ∧ r.symbol.name = q.symbol.name ∧ r.plugin ≠ q.plugin

def placeOf (r : Registration) : String × String :=
  (r.symbol.file, r.symbol.name)

def pluginsAt (registrations : List Registration) (place : String × String) : List String :=
  ((registrations.filter (placeOf · = place)).map Registration.plugin).eraseDups

def addDefiner (table : Table (String × String) (List String)) (r : Registration) :
    Table (String × String) (List String) :=
  table.put (placeOf r) (Text.extend ((table.find? (placeOf r)).getD []) [r.plugin])

theorem definersFind (registrations : List Registration) (place : String × String) :
    ((registrations.foldl addDefiner Table.empty).find? place).getD [] = pluginsAt registrations place := by
  induction registrations using List.reverseRecOn generalizing place with
  | nil => rfl
  | append_singleton registrations r ih =>
    rw [List.foldl_append, List.foldl_cons, List.foldl_nil, addDefiner, Table.findPut]
    by_cases same : place = placeOf r
    · subst same
      simp [ih, pluginsAt, Text.firstsSnoc]
    · simp [same, Ne.symm same, ih, pluginsAt]

theorem pluginsSeveral {registrations : List Registration} {place : String × String} :
    1 < (pluginsAt registrations place).length ↔ ∃ r ∈ registrations, ∃ q ∈ registrations,
      placeOf r = place ∧ placeOf q = place ∧ r.plugin ≠ q.plugin := by
  simp only [pluginsAt, Text.firstsDiffer, List.mem_map, List.mem_filter, decide_eq_true_eq]
  constructor
  · rintro ⟨_, ⟨r, ⟨first, left⟩, rfl⟩, _, ⟨q, ⟨second, right⟩, rfl⟩, differ⟩
    exact ⟨r, first, q, second, left, right, differ⟩
  · rintro ⟨r, first, q, second, left, right, differ⟩
    exact ⟨_, ⟨r, ⟨first, left⟩, rfl⟩, _, ⟨q, ⟨second, right⟩, rfl⟩, differ⟩

theorem pluginsDiffer {registrations : List Registration} :
    (∃ place, 1 < (pluginsAt registrations place).length) ↔ Colliding registrations := by
  simp only [pluginsSeveral, Colliding]
  constructor
  · rintro ⟨place, r, first, q, second, left, right, differ⟩
    have same := Prod.mk.inj (left.trans right.symm)
    exact ⟨r, first, q, second, same.1, same.2, differ⟩
  · rintro ⟨r, first, q, second, file, name, differ⟩
    exact ⟨placeOf q, r, first, q, second, Prod.ext file name, rfl, differ⟩

theorem collisionsNone {registry : SymbolRegistry} :
    registry.collisions = [] ↔ ¬Colliding registry.symbols.values := by
  have found := definersFind registry.symbols.values
  have same : registry.definers = registry.symbols.values.foldl addDefiner Table.empty := rfl
  rw [← pluginsDiffer, collisions, same, List.map_eq_nil_iff, List.filter_eq_nil_iff]
  simp only [decide_eq_true_eq, not_exists]
  constructor
  · intro none place several
    rw [← found] at several
    cases held : (registry.symbols.values.foldl addDefiner Table.empty).find? place with
    | none => simp [held] at several
    | some plugins =>
      rw [held, Option.getD_some] at several
      exact none _ (Table.findPresent.mp held) several
  · intro single entry member several
    have held := Table.findPresent.mpr member
    refine single entry.1 ?_
    rw [← found, held]
    exact several

end Codegen.SymbolRegistry
