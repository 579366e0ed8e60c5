import Codegen.Emission.Builder
import Codegen.Proofs.Emission.History

/-! What calls on a builder amount to. The first call that brings a text or a fragment settles what the
file is made of; a call that brings no fragment settles nothing. The file then has the parts that came
with the calls, in their order. -/
namespace Codegen.Builder

inductive Mode where
  | text
  | fragments
  deriving DecidableEq

namespace Call

def mode? : Call → Option Mode
  | .text _ => some .text
  | .fragments part => if part.fragments = [] then none else some .fragments
  | _ => none

def header? : Call → Option String
  | .header line => some line
  | _ => none

def import? : Call → Option ImportRef
  | .addImport ref => some ref
  | _ => none

def text? : Call → Option String
  | .text content => some content
  | _ => none

def given : Call → List Fragment
  | .fragments part => part.fragments
  | _ => []

end Call

def mode (calls : List Call) : Option Mode :=
  calls.findSome? Call.mode?

def headersOf (calls : List Call) : List String :=
  calls.filterMap Call.header?

def importsOf (calls : List Call) : List ImportRef :=
  calls.filterMap Call.import?

def textsOf (calls : List Call) : List String :=
  calls.filterMap Call.text?

def fragmentsOf (calls : List Call) : List Fragment :=
  calls.flatMap Call.given

def headerOf (calls : List Call) : Option String :=
  if headersOf calls = [] then none else some (Text.join "\n" (headersOf calls) ++ "\n")

def Barred (calls : List Call) : Prop :=
  mode calls = some .text ∧ importsOf calls ≠ []

def Emitted (calls : List Call) : Prop :=
  ∃ before append, before ++ [Call.emit append] <+: calls ∧ ¬Barred before

def handed (path plugin : String) (append : Bool) (calls : List Call) : Write :=
  let target := Path.normalize path
  if mode calls = some .text then
    let text : TextWrite := ⟨target, (headerOf calls).getD "" ++ String.join (textsOf calls), plugin⟩
    if append then .append text else .emit text
  else
    .draft
      { path := target, fragments := fragmentsOf calls, plugin := plugin
        header := headerOf calls, imports := importsOf calls }

section Snoc

variable {calls : List Call} {call : Call}

theorem modeSnoc : mode (calls ++ [call]) = (mode calls).or call.mode? := by
  rw [mode, List.findSome?_append, List.findSome?_singleton]
  rfl

theorem modeSilent (silent : call.mode? = none) : mode (calls ++ [call]) = mode calls := by
  rw [modeSnoc, silent, Option.or_none]

theorem settledEarly {before after : List Call} {settled : Mode} (known : mode before = some settled) :
    mode (before ++ after) = some settled := by
  rw [mode, List.findSome?_append, ← mode, known, Option.some_or]

theorem fragmentsNone : fragmentsOf calls = [] ↔ ∀ part, Call.fragments part ∈ calls → part.fragments = [] := by
  rw [fragmentsOf, List.flatMap_eq_nil_iff]
  constructor
  · intro none part member
    exact none _ member
  · intro none call member
    cases call with
    | fragments part => exact none part member
    | _ => rfl

theorem textsNone : textsOf calls = [] ↔ ∀ content, Call.text content ∉ calls := by
  rw [textsOf, List.filterMap_eq_nil_iff]
  constructor
  · intro none content member
    cases none _ member
  · intro none call member
    cases call with
    | text content => exact absurd member (none content)
    | _ => rfl

theorem modeNone : mode calls = none ↔ textsOf calls = [] ∧ fragmentsOf calls = [] := by
  rw [textsNone, fragmentsNone, mode, List.findSome?_eq_none_iff]
  constructor
  · intro silent
    constructor
    · intro content member
      cases silent _ member
    · intro part member
      by_contra given
      simpa [Call.mode?, given] using silent _ member
  · intro none call member
    cases call with
    | text content => exact absurd member (none.1 content)
    | fragments part => simp [Call.mode?, none.2 part member]
    | _ => rfl

theorem modeTextSnoc : mode (calls ++ [call]) = some .text ↔
    mode calls = some .text ∨ mode calls = none ∧ call.text?.isSome := by
  rw [modeSnoc]
  cases known : mode calls with
  | some settled => simp
  | none =>
    cases call with
    | fragments part => by_cases empty : part.fragments = [] <;> simp [Call.mode?, Call.text?, empty]
    | _ => simp [Call.mode?, Call.text?]

theorem textSettled (settled : mode calls = some .text) : ∃ before content after,
    calls = before ++ .text content :: after ∧ fragmentsOf before = [] := by
  obtain ⟨before, call, after, parts, own, earlier⟩ := List.findSome?_eq_some_iff.mp settled
  have none := modeNone.mp (List.findSome?_eq_none_iff.mpr earlier)
  cases call with
  | text content => exact ⟨before, content, after, parts, none.2⟩
  | fragments part =>
    simp only [Call.mode?] at own
    split at own <;> cases own
  | _ => cases own

theorem fragmentsSettled (settled : mode calls = some .fragments) : ∃ before part after,
    calls = before ++ .fragments part :: after ∧ part.fragments ≠ [] ∧ textsOf before = [] := by
  obtain ⟨before, call, after, parts, own, earlier⟩ := List.findSome?_eq_some_iff.mp settled
  have none := modeNone.mp (List.findSome?_eq_none_iff.mpr earlier)
  cases call with
  | fragments part =>
    refine ⟨before, part, after, parts, fun empty => ?_, none.1⟩
    simp [Call.mode?, empty] at own
  | _ => cases own

theorem modeUngiven (none : fragmentsOf calls = []) : mode calls ≠ some .fragments := by
  intro settled
  obtain ⟨before, part, after, rfl, given, _⟩ := fragmentsSettled settled
  exact given (fragmentsNone.mp none part List.mem_append_cons_self)

theorem textAccepted {before after : List Call} {content : String} (open_ : mode before ≠ some .fragments) :
    mode (before ++ .text content :: after) = some .text := by
  have settled : mode (before ++ [.text content]) = some .text := by
    rw [modeTextSnoc]
    cases known : mode before with
    | none => exact .inr ⟨rfl, rfl⟩
    | some settled =>
      cases settled with
      | text => exact .inl rfl
      | fragments => exact absurd known open_
  rw [List.append_cons, settledEarly settled]

theorem modeText : mode calls = some .text ↔ ∃ before content after,
    calls = before ++ .text content :: after ∧ fragmentsOf before = [] := by
  constructor
  · exact textSettled
  · intro first
    obtain ⟨before, content, after, rfl, none⟩ := first
    exact textAccepted (modeUngiven none)

theorem modeTaken : mode calls = some .text ↔ ∃ before content after,
    calls = before ++ .text content :: after ∧ mode before ≠ some .fragments := by
  constructor
  · intro settled
    obtain ⟨before, content, after, parts, none⟩ := textSettled settled
    exact ⟨before, content, after, parts, modeUngiven none⟩
  · intro taken
    obtain ⟨before, content, after, rfl, open_⟩ := taken
    exact textAccepted open_

theorem modeFragments : mode calls = some .fragments ↔ ∃ before part after,
    calls = before ++ .fragments part :: after ∧ part.fragments ≠ [] ∧ textsOf before = [] := by
  constructor
  · exact fragmentsSettled
  · intro first
    obtain ⟨before, part, after, parts, given, none⟩ := first
    have settled : mode (before ++ [.fragments part]) = some .fragments := by
      rw [modeSnoc]
      cases known : mode before with
      | none => simp [Call.mode?, given]
      | some settled =>
        cases settled with
        | fragments => rfl
        | text =>
          obtain ⟨earlier, content, later, rfl, _⟩ := textSettled known
          exact absurd (by simp) (textsNone.mp none content)
    rw [parts, List.append_cons, settledEarly settled]

theorem headersSnoc : headersOf (calls ++ [call]) = headersOf calls ++ call.header?.toList := by
  cases line : call.header? <;> simp [headersOf, line]

theorem importsSnoc : importsOf (calls ++ [call]) = importsOf calls ++ call.import?.toList := by
  cases ref : call.import? <;> simp [importsOf, ref]

theorem textsSnoc : textsOf (calls ++ [call]) = textsOf calls ++ call.text?.toList := by
  cases content : call.text? <;> simp [textsOf, content]

theorem fragmentsSnoc : fragmentsOf (calls ++ [call]) = fragmentsOf calls ++ call.given := by
  simp [fragmentsOf]

theorem emittedSnoc : Emitted (calls ++ [call]) ↔
    Emitted calls ∨ ¬Barred calls ∧ ∃ append, call = .emit append := by
  constructor
  · intro emitted
    obtain ⟨before, append, early, free⟩ := emitted
    rcases List.prefix_concat_iff.mp early with last | early
    · obtain ⟨rfl, same⟩ := List.append_inj' last rfl
      exact .inr ⟨free, append, (List.cons.inj same).1.symm⟩
    · exact .inl ⟨before, append, early, free⟩
  · intro either
    rcases either with ⟨before, append, early, free⟩ | ⟨free, append, rfl⟩
    · exact ⟨before, append, early.trans (List.prefix_append ..), free⟩
    · exact ⟨calls, append, List.prefix_refl _, free⟩

end Snoc

end Codegen.Builder
