import Codegen.Proofs.Request.Key
import Codegen.Proofs.Request.Spelling
import Codegen.Proofs.Value.Canonical

/-! Which requests have one key: those of one kind whose parameters differ in the order of members only,
where no parameters at all may be spelled in either way. -/
namespace Codegen

namespace Value

variable {v w : Value}

theorem emptyAlike (members : List (String × Value)) (alike : (object []).Alike (object members)) :
    members = [] := by
  cases alike with
  | object order names values =>
    cases order.symm.eq_nil
    simpa using names.symm

theorem alikeEmpty (members : List (String × Value)) (alike : (object members).Alike (object [])) :
    members = [] := by
  cases alike with
  | object order names values =>
    cases List.map_eq_nil_iff.mp names
    exact order.eq_nil

theorem blankAlike (alike : (object []).Alike w.filled) : Respelled .null w := by
  cases w with
  | null => exact .same .null
  | object members =>
    cases emptyAlike members alike
    exact .filled
  | _ => cases alike

theorem alikeBlank (alike : v.filled.Alike (object [])) : v.Respelled .null := by
  cases v with
  | null => exact .same .null
  | object members =>
    cases alikeEmpty members alike
    exact .blanked
  | _ => cases alike

theorem alikeFilled (alike : v.Alike w) : v.filled.Alike w.filled := by
  cases v with
  | null =>
    cases alike
    exact .object .nil rfl .nil
  | _ =>
    cases w with
    | null => cases alike
    | _ => exact alike

theorem filledAlike (plain : v.Plain) :
    v.filled.Alike w.filled ↔ v.Alike w ∨ v.Respelled w := by
  refine ⟨fun alike => ?_, ?_⟩
  · cases v with
    | null => exact .inr (blankAlike alike)
    | _ =>
      cases w with
      | null => exact .inr (alikeBlank alike)
      | _ => exact .inl alike
  · rintro (alike | respelled)
    · exact alikeFilled alike
    · cases respelled with
      | same => exact alikeFilled ((plainText plain plain).mp rfl)
      | filled => exact .object .nil rfl .nil
      | blanked => exact .object .nil rfl .nil

end Value

namespace Request

/-- Two requests have one key exactly if they are of one kind, and their parameters differ in the order
of members only, or are the two spellings of no parameters. -/
theorem keysAlike {r s : Request} (plain : r.params.Plain) (plain' : s.params.Plain) :
    r.key = s.key ↔ r.kind = s.kind ∧ (r.params.Alike s.params ∨ r.params.Respelled s.params) := by
  have params : r.params.canonical = s.params.canonical ↔
      r.params.Alike s.params ∨ r.params.Respelled s.params :=
    (Value.canonicalAlike plain plain').trans (Value.filledAlike plain)
  constructor
  · intro same
    obtain ⟨kind, texts⟩ := keyParts same
    exact ⟨kind, params.mp texts⟩
  · rintro ⟨kind, alike⟩
    rw [key, key, kind, params.mpr alike]

namespace Sample

def items : Value :=
  .list [.null, .int (-5)]

def flags : Value :=
  .object [("x", .bool true), ("\\y", .text "😀")]

def flagsSwapped : Value :=
  .object [("\\y", .text "😀"), ("x", .bool true)]

def given : Request :=
  ⟨"a::\"\x7b", .object [("::", items), ("\"", flags)]⟩

def givenSwapped : Request :=
  ⟨"a::\"\x7b", .object [("\"", flagsSwapped), ("::", items)]⟩

theorem membersSwapped :
    given.params.Plain ∧ givenSwapped.params.Plain ∧ given.key = givenSwapped.key := by
  have listed : items.Plain := .list (by simpa using ⟨.null, .int _⟩)
  have left : flags.Plain := .object (by decide) (by simpa using ⟨.bool _, .text _⟩)
  have right : flagsSwapped.Plain := .object (by decide) (by simpa using ⟨.text _, .bool _⟩)
  have plain : given.params.Plain := .object (by decide) (by simpa using ⟨listed, left⟩)
  have plain' : givenSwapped.params.Plain := .object (by decide) (by simpa using ⟨right, listed⟩)
  have inner : flags.Alike flagsSwapped :=
    .object (.swap ..) rfl (.cons (.text _) (.cons (.bool _) .nil))
  have same : items.Alike items := .list (.cons .null (.cons (.int _) .nil))
  have alike : given.params.Alike givenSwapped.params :=
    .object (.swap ..) rfl (.cons inner (.cons same .nil))
  exact ⟨plain, plain', (keysAlike plain plain').mpr ⟨rfl, .inl alike⟩⟩

end Sample
end Request
end Codegen
