import Codegen.Placement

/-! Where rules that override defaults place a symbol. Overrides stand behind the defaults that they leave,
so one of them decides only if no default that is left is for the capability; a capability that no
override is for is placed as by the defaults. -/
namespace Codegen

namespace FileRule

def Reach (rules : List FileRule) (capability : String) : Prop :=
  ∃ rule ∈ rules, rule.pattern.toList <+: capability.toList

def left (defaults overrides : List FileRule) : List FileRule :=
  defaults.filter (fun rule => ∀ override ∈ overrides, override.pattern ≠ rule.pattern)

section Chosen

variable {rules defaults overrides : List FileRule} {capability : String}

theorem matchingStarts {rule : FileRule} :
    rule.matching capability = true ↔ rule.pattern.toList <+: capability.toList := by
  rw [matching, Text.startsWith, List.isPrefixOf_iff_prefix]

theorem chosenNone : rules.find? (·.matching capability) = none ↔ ¬Reach rules capability := by
  simp only [List.find?_eq_none, matchingStarts, Reach, not_exists, not_and]

theorem mergedParts (defaults overrides : List FileRule) :
    merge defaults overrides = left defaults overrides ++ overrides := by
  have same : ∀ rule ∈ defaults, decide (rule.pattern ∉ overrides.map (·.pattern)) =
      decide (∀ override ∈ overrides, override.pattern ≠ rule.pattern) := by
    intro rule _
    simp
  rw [merge, left, List.filter_congr same]

/- A default that is replaced has the pattern of an override, so where no override is for the capability
it is not for it either. -/
theorem leftChosen (uncovered : ¬Reach overrides capability) :
    (left defaults overrides).find? (·.matching capability) =
      defaults.find? (·.matching capability) := by
  rw [left, List.find?_filter]
  congr 1
  funext rule
  cases starts : rule.matching capability with
  | false => simp
  | true =>
    have kept : ∀ override ∈ overrides, override.pattern ≠ rule.pattern := by
      intro override member same
      refine uncovered ⟨override, member, ?_⟩
      rw [same]
      exact matchingStarts.mp starts
    simpa using kept

end Chosen
end FileRule

namespace Placed

open FileRule (Reach left merge)

structure Alike (p : Placed) (rules others : List FileRule) : Prop where
  rule : rules.find? (·.matching p.capability) = others.find? (·.matching p.capability)
  path : ∀ file, p.path rules file = p.path others file

theorem ruleAlike {p : Placed} {rules others : List FileRule}
    (same : rules.find? (·.matching p.capability) = others.find? (·.matching p.capability)) :
    p.Alike rules others :=
  ⟨same, fun file => by rw [path, path, same]⟩

structure Overridden (p : Placed) (defaults overrides : List FileRule) : Prop where
  covered : Reach overrides p.capability → ¬Reach (left defaults overrides) p.capability →
    p.Alike (merge defaults overrides) overrides
  uncovered : ¬Reach overrides p.capability → p.Alike (merge defaults overrides) defaults
  shadowed : Reach (left defaults overrides) p.capability →
    p.Alike (merge defaults overrides) (left defaults overrides)

theorem overridesPlaced (p : Placed) (defaults overrides : List FileRule) :
    p.Overridden defaults overrides := by
  have parts : (merge defaults overrides).find? (·.matching p.capability) =
      ((left defaults overrides).find? (·.matching p.capability)).or
        (overrides.find? (·.matching p.capability)) := by
    rw [FileRule.mergedParts, List.find?_append]
  refine ⟨fun _ alone => ?_, fun uncovered => ?_, fun reached => ?_⟩
  · apply ruleAlike
    rw [parts, FileRule.chosenNone.mpr alone, Option.none_or]
  · apply ruleAlike
    rw [parts, FileRule.chosenNone.mpr uncovered, Option.or_none, FileRule.leftChosen uncovered]
  · apply ruleAlike
    obtain ⟨rule, chosen⟩ := Option.ne_none_iff_exists'.mp fun none => FileRule.chosenNone.mp none reached
    rw [parts, chosen, Option.some_or]

/- An override of the narrower of two default rules. The wider one, which it leaves, now comes first. -/
namespace Sample

def userRow : Placed :=
  { capability := "types:User:row", name := "UserRow" }

def narrow : FileRule :=
  { pattern := "types:User", naming := fun _ => "user_types.py" }

def wide : FileRule :=
  { pattern := "types:", naming := fun _ => "types.py" }

def models : FileRule :=
  { pattern := "types:User", naming := fun _ => "models.py" }

theorem overrideLost : Reach [models] userRow.capability ∧
    userRow.path [models] none = .ok "models.py" ∧
    userRow.path (merge [narrow, wide] [models]) none = .ok "types.py" ∧
    userRow.path [narrow, wide] none = .ok "user_types.py" := by
  refine ⟨⟨models, List.mem_cons_self, ?_⟩, rfl, rfl, rfl⟩
  exact FileRule.matchingStarts.mp (by decide +kernel)

end Sample
end Placed
end Codegen
