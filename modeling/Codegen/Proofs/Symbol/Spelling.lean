import Codegen.Proofs.Symbol.Reached
import Codegen.Proofs.Text.Lines

/-! The spellings of an address. A symbol is addressed by a kind, an entity and perhaps a shape, of which the
capability may carry some already. All spellings have one key, which tells the address; so a symbol is found
in any spelling of its address and in none of another one. -/
namespace Codegen

@[ext]
structure Address where
  kind : String
  entity : String
  shape : Option String := none
  plainKind : ':' ∉ kind.toList
  plainEntity : ':' ∉ entity.toList
  named : entity ≠ ""
  plainShape : ∀ s ∈ shape, ':' ∉ s.toList
  shaped : ∀ s ∈ shape, s ≠ ""

namespace Address

def key (a : Address) : String :=
  match a.shape with
  | none => a.kind ++ ":" ++ a.entity
  | some shape => a.kind ++ ":" ++ a.entity ++ ":" ++ shape

inductive Spelled (a : Address) : String → String → Option String → Prop where
  | apart : Spelled a a.kind a.entity a.shape
  | entityCarried : Spelled a (a.kind ++ ":" ++ a.entity) a.entity a.shape
  | carried : Spelled a a.key a.entity a.shape
  | shapeCarried : Spelled a a.key a.entity none
  | whole : Spelled a a.key "" none

def given (a : Address) : List String :=
  a.entity :: a.shape.toList

end Address

section Segments

open Codegen.Symbol (givenSegments joinSegments keySegments keyOf)

variable {carried given : List String}

theorem joinLonger (longer : carried <+: given) : joinSegments carried given = given := by
  rw [joinSegments]
  split
  · rename_i shorter
    exact longer.eq_of_length_le (List.isPrefixOf_iff_prefix.mp shorter).length_le
  · rw [if_pos (List.isPrefixOf_iff_prefix.mpr longer)]

theorem joinShorter (shorter : given <+: carried) : joinSegments carried given = carried := by
  rw [joinSegments, if_pos (List.isPrefixOf_iff_prefix.mpr shorter)]

theorem carriedJoined (carried given : List String) : carried <+: joinSegments carried given := by
  unfold joinSegments
  split
  · exact List.prefix_rfl
  · split
    · rename_i longer
      exact List.isPrefixOf_iff_prefix.mp longer
    · exact List.prefix_append _ _

theorem splitSome (capability : String) :
    ∃ kind carried, Text.split ':' capability = kind :: carried := by
  refine List.exists_cons_of_ne_nil fun none => ?_
  exact Text.cutNonempty ':' capability.toList (List.map_eq_nil_iff.mp none)

theorem capabilitySegments (capability entity : String) (shape : Option String) :
    Text.split ':' capability <+: keySegments capability entity shape := by
  obtain ⟨kind, carried, cut⟩ := splitSome capability
  rw [keySegments, cut]
  exact List.cons_prefix_cons.mpr ⟨rfl, carriedJoined _ _⟩

theorem capabilityKey (capability entity : String) (shape : Option String) :
    Text.split ':' capability <+: Text.split ':' (keyOf capability entity shape) := by
  rw [keyOf, Text.splitPrefix]
  exact Text.joinExtended (capabilitySegments capability entity shape)

end Segments

namespace Address

open Codegen.Symbol (givenSegments joinSegments keySegments keyOf)

variable {a b : Address} {capability entity : String} {shape : Option String}

def segments (a : Address) : List String :=
  a.kind :: a.given

theorem keyJoined (a : Address) : a.key = Text.join ":" a.segments := by
  rw [key, segments, given]
  cases a.shape <;> rfl

theorem keySplit (a : Address) : Text.split ':' a.key = a.segments := by
  rw [keyJoined]
  refine Text.splitJoin (List.cons_ne_nil _ _) ?_
  simp only [segments, given, List.mem_cons, Option.mem_toList]
  rintro part (rfl | rfl | shaped)
  · exact a.plainKind
  · exact a.plainEntity
  · exact a.plainShape part shaped

theorem keyApart (same : a.key = b.key) : a = b := by
  have pieces : a.segments = b.segments := by rw [← keySplit, ← keySplit, same]
  obtain ⟨kind, given⟩ := List.cons.inj pieces
  obtain ⟨entity, rest⟩ := List.cons.inj given
  have shape := congrArg List.head? rest
  rw [Option.head?_toList, Option.head?_toList] at shape
  exact Address.ext kind entity shape

theorem givenWhole (a : Address) : givenSegments a.entity a.shape = a.given := by
  cases held : a.shape with
  | none => simp [givenSegments, given, a.named, held]
  | some shape => simp [givenSegments, given, a.named, held, a.shaped shape held]

theorem givenEntity (a : Address) : givenSegments a.entity none = [a.entity] := by
  simp [givenSegments, a.named]

theorem entityFirst (a : Address) : [a.entity] <+: a.given :=
  List.prefix_append [a.entity] a.shape.toList

theorem spelledParts (spelled : a.Spelled capability entity shape) : ∃ carried,
    Text.split ':' capability = a.kind :: carried ∧
      (carried = a.given ∧ givenSegments entity shape <+: a.given ∨
        carried <+: a.given ∧ givenSegments entity shape = a.given) := by
  cases spelled with
  | apart => exact ⟨[], Text.splitPlain a.plainKind, .inr ⟨List.nil_prefix, givenWhole a⟩⟩
  | entityCarried =>
    have cut : Text.split ':' (a.kind ++ ":" ++ a.entity) = [a.kind, a.entity] := by
      have parted := Text.splitAppend ':' a.kind a.entity
      rwa [Text.splitPlain a.plainKind, Text.splitPlain a.plainEntity] at parted
    exact ⟨[a.entity], cut, .inr ⟨entityFirst a, givenWhole a⟩⟩
  | carried => exact ⟨a.given, keySplit a, .inl ⟨rfl, givenWhole a ▸ List.prefix_rfl⟩⟩
  | shapeCarried => exact ⟨a.given, keySplit a, .inl ⟨rfl, givenEntity a ▸ entityFirst a⟩⟩
  | whole => exact ⟨a.given, keySplit a, .inl ⟨rfl, List.nil_prefix⟩⟩

theorem spelledKey (spelled : a.Spelled capability entity shape) :
    keyOf capability entity shape = a.key := by
  obtain ⟨carried, cut, parts⟩ := spelledParts spelled
  have joined : joinSegments carried (givenSegments entity shape) = a.given := by
    rcases parts with ⟨rfl, shorter⟩ | ⟨longer, whole⟩
    · exact joinShorter shorter
    · rw [whole]
      exact joinLonger longer
  rw [keyOf, keySegments, cut, keyJoined]
  simp only [joined, segments]

end Address

open SymbolRegistry (Reached)

structure Address.Reliable (a : Address) : Prop where
  spelled : ∀ capability entity shape, a.Spelled capability entity shape →
    Symbol.keyOf capability entity shape = a.key
  apart : ∀ b : Address, a.key = b.key → a = b
  registered : ∀ registry next s plugin, Reached registry → registry.register s plugin = .ok next →
    a.Spelled s.capability s.entity s.shape → ∀ ref, a.Spelled ref.capability ref.entity ref.shape →
      next.resolve ref = some s.normalized
  found : ∀ registry, Reached registry → ∀ s ∈ registry.all, a.Spelled s.capability s.entity s.shape →
    ∀ ref : SymbolRef, a.Spelled ref.capability ref.entity ref.shape →
      registry.resolve ref = some s ∧ registry.contains ref = true
  missed : ∀ registry, Reached registry → ∀ s ∈ registry.all, a.Spelled s.capability s.entity s.shape →
    ∀ b ≠ a, ∀ ref : SymbolRef, b.Spelled ref.capability ref.entity ref.shape →
      registry.resolve ref ≠ some s

theorem Address.spelledFound {a : Address} {registry : SymbolRegistry} (reached : Reached registry)
    {s : Symbol} (known : s ∈ registry.all) (spelled : a.Spelled s.capability s.entity s.shape)
    {ref : SymbolRef} (other : a.Spelled ref.capability ref.entity ref.shape) :
    registry.resolve ref = some s := by
  rw [SymbolRegistry.resolveKeyed (SymbolRegistry.keyedReached reached)]
  exact ⟨known, (spelledKey other).trans (spelledKey spelled).symm⟩

theorem Address.spelledMissed {a b : Address} {registry : SymbolRegistry} (reached : Reached registry)
    {s : Symbol} (spelled : a.Spelled s.capability s.entity s.shape) (different : b ≠ a)
    {ref : SymbolRef} (other : b.Spelled ref.capability ref.entity ref.shape) :
    registry.resolve ref ≠ some s := by
  rw [Ne, SymbolRegistry.resolveKeyed (SymbolRegistry.keyedReached reached)]
  rintro ⟨_, same⟩
  have keys : b.key = a.key := (spelledKey other).symm.trans (same.trans (spelledKey spelled))
  exact different (keyApart keys)

theorem spellingsReliable : (∀ a : Address, a.Reliable) ∧
    ∀ capability entity shape,
      Text.split ':' capability <+: Text.split ':' (Symbol.keyOf capability entity shape) := by
  refine ⟨fun a => ?_, capabilityKey⟩
  exact
    { spelled := fun _ _ _ => Address.spelledKey
      apart := fun _ => Address.keyApart
      registered := fun registry next s plugin reached ok spelled ref other =>
        Address.spelledFound (.register reached ok) (SymbolRegistry.registeredAll ok) spelled other
      found := fun registry reached s known spelled ref other =>
        have held := Address.spelledFound reached known spelled other
        ⟨held, SymbolRegistry.resolveContains held⟩
      missed := fun registry reached s known spelled b different ref other =>
        Address.spelledMissed reached spelled different other }

/- An entity with the name of its kind. A shape that the capability carries without the entity makes no
spelling. -/
namespace Sample

def userRow : Address :=
  { kind := "user", entity := "user", shape := some "row"
    plainKind := by decide
    plainEntity := by decide
    named := by decide
    plainShape := by simp
    shaped := by simp }

def row : Symbol :=
  { name := "Row", file := "types.py", capability := "user:user", entity := "user", shape := some "row" }

theorem rowFound : userRow.Reliable ∧ (∃ next, SymbolRegistry.register {} row "rows" = .ok next ∧
    next.resolve { capability := "user:user:row" } = some row.normalized) ∧
    Symbol.keyOf "user:row" "user" (some "row") ≠ userRow.key := by
  have reliable := spellingsReliable.1 userRow
  refine ⟨reliable, ⟨_, rfl, ?_⟩, by cbv⟩
  exact reliable.registered {} _ row "rows" .empty rfl .entityCarried { capability := "user:user:row" } .whole

end Sample

end Codegen
