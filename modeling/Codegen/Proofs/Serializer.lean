import Codegen.Proofs.Outcome
import Codegen.Proofs.Source.Spacing
import Codegen.Serializer

/-! The body of a file and its place in the text. All fragments but foreign values can be written; the
lines of the body that are not blank are those of the fragments, one fragment after the other. -/
namespace Codegen

open Text (nonBlankLines)

namespace Fragment

theorem sourceWritten {fragment : Fragment} :
    (∃ s, fragment.source = .ok s) ↔ ∀ value, fragment ≠ .other value := by
  cases fragment <;> simp [source]

theorem sourceLines {fragment : Fragment} {s : String} (ok : fragment.source = .ok s) :
    nonBlankLines s = nonBlankLines fragment.display := by
  cases fragment with
  | text given =>
    have same : Text.strip '\n' given = s := Except.ok.inj ok
    rw [← same]
    exact Text.nonBlankLinesStrip given
  | node tree =>
    have same : tree.text = s := Except.ok.inj ok
    rw [← same, display]
  | other value => cases ok

end Fragment

namespace Serializer

theorem bodyWritten {fragments : List Fragment} :
    (∃ body, joinSources fragments = .ok body) ↔ ∀ value, Fragment.other value ∉ fragments := by
  have each : (∃ body, joinSources fragments = .ok body) ↔
      ∃ parts, fragments.mapM Fragment.source = .ok parts := by
    simp [joinSources, Outcome.bindSucceeds]
  rw [each, Outcome.eachSucceeds]
  simp only [Fragment.sourceWritten]
  exact ⟨fun known value member => known _ member value rfl,
    fun known fragment member value same => known value (same ▸ member)⟩

theorem partsLines (parts : List String) :
    nonBlankLines (Text.join "\n" (parts.filter (· ≠ ""))) = parts.flatMap nonBlankLines := by
  rw [Text.nonBlankLinesJoin]
  induction parts with
  | nil => rfl
  | cons part rest ih =>
    by_cases empty : part = ""
    · have nothing : nonBlankLines "" = [] := rfl
      simpa [empty, nothing] using ih
    · simpa [empty] using ih

theorem bodyLines {fragments : List Fragment} {body : String}
    (ok : joinSources fragments = .ok body) :
    nonBlankLines body = fragments.flatMap (fun fragment => nonBlankLines fragment.display) := by
  obtain ⟨parts, sources, last⟩ := Outcome.bindOk.mp ok
  cases last
  rw [partsLines]
  have each := Outcome.eachOk.mp sources
  clear sources ok
  induction each with
  | nil => rfl
  | cons head tail ih => rw [List.flatMap_cons, List.flatMap_cons, ih, Fragment.sourceLines head]

def gap (imports body : String) : String :=
  if imports = "" then "" else if body = "" then "\n" else "\n\n\n"

theorem assembledParts (header : Option String) (imports body : String) :
    assembleModule header imports body = header.getD "" ++ imports ++ gap imports body ++ body := by
  unfold assembleModule gap
  by_cases none : imports = ""
  · simp [none]
  · by_cases empty : body = ""
    · simp [none, empty, String.append_assoc]
    · simp [none, empty]

end Serializer
end Codegen
