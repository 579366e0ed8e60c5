import Codegen.Proofs.Source.Literal

/-! Reading the first lines of a text. Where the reading rests between two statements no literal goes on:
those that were found end before, and those that are found later begin there or behind. -/
namespace Codegen.Source

namespace Literal

structure Since (start : Nat) (old : List Span) (state : State) : Prop where
  behind : start ≤ state.line
  opened : ∀ first ∈ state.opened, start ≤ first
  spans : ∀ span ∈ state.spans, span ∈ old ∨ start ≤ span.first

theorem sinceStep {start : Nat} {old : List Span} {state next : State} {c : Char}
    (since : Since start old state) (ok : step state c = some next) : Since start old next := by
  obtain ⟨behind, opened, spans⟩ := since
  cases stepForms ok with
  | passes =>
    refine ⟨?_, opened, spans⟩
    dsimp only
    split <;> omega
  | opens => exact ⟨behind, List.forall_mem_cons.mpr ⟨behind, opened⟩, spans⟩
  | @closes _ first outer top =>
    rw [top] at opened
    obtain ⟨later, others⟩ := List.forall_mem_cons.mp opened
    refine ⟨behind, others, fun span member => ?_⟩
    rcases List.mem_append.mp member with earlier | new
    · exact spans span earlier
    · split at new
      · cases List.mem_singleton.mp new
        exact .inr later
      · cases new

theorem sinceFold {start : Nat} {old : List Span} {cs : List Char} {state last : State}
    (since : Since start old state) (ok : cs.foldlM step state = some last) : Since start old last :=
  foldKept (P := fun _ => Since start old) sinceStep [] since ok

def wholeLine (line : String) : List Char :=
  line.toList ++ ['\n']

def readLines (lines : List String) : Option State :=
  (lines.flatMap wholeLine).foldlM step {}

def restsAfter (lines : List String) : Bool :=
  (readLines lines).any State.atRest

theorem readLinesBefore {code line : String} {first more : List String} {last : State}
    (text : Text.lines code = first ++ line :: more)
    (done : (code.toList ++ lineEnd code.toList).foldlM step {} = some last) :
    ∃ (state : State) (rest : List Char), readLines first = some state ∧ rest.foldlM step state = some last := by
  obtain ⟨front, back, parts, rfl, tail⟩ := List.map_eq_append_iff.mp text
  cases back with
  | nil => cases tail
  | cons piece others =>
    obtain ⟨rest, whole⟩ := Text.cutBefore parts
    have same : (front.map String.ofList).flatMap wholeLine = front.flatMap (· ++ ['\n']) := by
      rw [List.flatMap_map]
      exact congrArg front.flatMap (funext fun piece => by rw [wholeLine, String.toList_ofList])
    rw [whole, List.append_assoc, List.foldlM_append, ← same] at done
    obtain ⟨state, before, later⟩ := Option.bind_eq_some_iff.mp done
    exact ⟨state, _, before, later⟩

theorem linesCounted {lines : List String} (plain : ∀ line ∈ lines, '\n' ∉ line.toList) :
    (lines.flatMap wholeLine).count '\n' = lines.length := by
  induction lines with
  | nil => rfl
  | cons line rest ih =>
    obtain ⟨first, others⟩ := List.forall_mem_cons.mp plain
    rw [List.flatMap_cons, List.count_append, ih others, wholeLine, List.count_append,
      List.count_eq_zero_of_not_mem first, List.count_singleton_self, List.length_cons]
    omega

/- The quote that closes a literal in whole lines has the end of its line behind it. -/
theorem closedEarlier {lines : List String} {span : Span}
    (closed : Closed (lines.flatMap wholeLine) span) :
    span.last ≤ (lines.flatMap wholeLine).count '\n' := by
  obtain ⟨before, c, after, text, quote, last⟩ := closed.closing
  have ended : '\n' ∈ after := by
    rcases List.eq_nil_or_concat lines with rfl | ⟨front, final, rfl⟩
    · simp at text
    · rw [List.concat_eq_append, List.flatMap_append, List.flatMap_singleton, wholeLine,
        ← List.append_assoc] at text
      rcases List.eq_nil_or_concat after with rfl | ⟨inner, other, rfl⟩
      · exact absurd (List.append_inj' text rfl).2.symm (by simp [quotePlain quote])
      · rw [List.concat_eq_append, ← List.cons_append, ← List.append_assoc] at text
        cases (List.append_inj' text rfl).2
        simp
  rw [text, last, lineAfter, List.count_append, List.count_cons_of_ne (quotePlain quote)]
  have counted := List.count_pos_iff.mpr ended
  omega

theorem readLinesAppend (first second : List String) :
    readLines (first ++ second) =
      (readLines first).bind ((second.flatMap wholeLine).foldlM step) := by
  rw [readLines, List.flatMap_append, List.foldlM_append]
  rfl

theorem indentPlain {c : Char} (indent : isIndent c = true) : isQuote c = false ∧ c ≠ '\n' := by
  simp only [isIndent, Bool.or_eq_true, decide_eq_true_eq] at indent
  rcases indent with (rfl | rfl) | rfl <;> decide

/- Blanks at the start of a line only move the margin. -/
theorem blanksFold {blanks rest : List Char} (indents : ∀ c ∈ blanks, isIndent c = true) (state : State)
    (m : Margin) :
    (blanks ++ rest).foldlM step { state with lexer := state.lexer.goTo (.margin m 0 false) } =
      rest.foldlM step
        { state with lexer := state.lexer.goTo (.margin (blanks.foldl Margin.after m) 0 false) } := by
  induction blanks generalizing m with
  | nil => rfl
  | cons c blanks ih =>
    obtain ⟨indent, others⟩ := List.forall_mem_cons.mp indents
    obtain ⟨plain, inner⟩ := indentPlain indent
    rw [List.cons_append, List.foldlM_cons, List.foldl_cons, ← ih others (m.after c)]
    simp [step, plain, inner, Lexer.other, Lexer.goTo, indent]

/- Inside a comment only the end of its line counts. -/
theorem commentFold {body rest : List Char} (plain : '\r' ∉ body ∧ '\n' ∉ body) (state : State) :
    (body ++ rest).foldlM step { state with lexer := state.lexer.goTo .comment } =
      rest.foldlM step { state with lexer := state.lexer.goTo .comment } := by
  induction body with
  | nil => rfl
  | cons c body ih =>
    simp only [List.mem_cons, not_or] at plain
    obtain ⟨⟨returns, back⟩, ends, inner⟩ := plain
    rw [List.cons_append, List.foldlM_cons, ← ih ⟨back, inner⟩]
    cases quote : isQuote c <;>
      simp [step, quote, State.turned, Lexer.quote, Lexer.other, Lexer.goTo, Ne.symm returns, Ne.symm ends]

/- A carriage return only comes at the end of such a line. -/
theorem commentEnds {body : List Char} (returns : '\r' ∉ body.dropLast) (inner : '\n' ∉ body)
    (state : State) : (body ++ ['\n']).foldlM step { state with lexer := state.lexer.goTo .comment } =
      some { state with lexer := state.lexer.goTo .fresh, line := state.line + 1 } := by
  have ends : ['\n'].foldlM step { state with lexer := state.lexer.goTo .comment } =
      some { state with lexer := state.lexer.goTo .fresh, line := state.line + 1 } := rfl
  rcases List.eq_nil_or_concat body with rfl | ⟨front, c, rfl⟩
  · exact ends
  · rw [List.concat_eq_append] at returns inner ⊢
    rw [List.dropLast_concat] at returns
    rw [List.mem_append, not_or] at inner
    rw [List.append_assoc, commentFold ⟨returns, inner.1⟩]
    by_cases last : c = '\r'
    · rw [last]
      rfl
    · rw [commentFold ⟨by simpa using Ne.symm last, inner.2⟩, ends]

end Literal

open Literal (restsAfter)

theorem restsFree {code line : String} {first more : List String}
    (text : Text.lines code = first ++ line :: more) (rests : restsAfter first = true) :
    inLiteral (literalSpans code) (first.length + 1) = false := by
  cases ok : Literal.read code with
  | none => simp [literalSpans, ok, inLiteral]
  | some spans =>
    obtain ⟨last, done, found⟩ := Literal.readForms ok
    obtain ⟨state, rest, before, later⟩ := Literal.readLinesBefore text done
    have quiet : state.opened = [] := by
      rw [restsAfter, before] at rests
      simp only [Option.any_some, Literal.State.atRest, decide_eq_true_eq] at rests
      exact rests.2
    have tracked := Literal.trackedFold Literal.trackedStart before
    rw [List.nil_append] at tracked
    have count : (first.flatMap Literal.wholeLine).count '\n' = first.length :=
      Literal.linesCounted fun other member => Text.lineOfText (by rw [text]; simp [member])
    have since : Literal.Since (first.length + 1) state.spans last := by
      refine Literal.sinceFold ⟨?_, ?_, fun span => .inl⟩ later
      · exact Nat.le_of_eq (by rw [tracked.here, Literal.lineAfter, count])
      · rw [quiet]
        exact fun _ member => (by cases member)
    rw [literalSpans, ok, Option.getD_some, ← found, inLiteral, List.any_eq_false]
    intro span member
    simp only [Span.continuedAt, decide_eq_true_eq, not_and]
    intro starts
    rcases since.spans span member with old | new
    · have closing := Literal.closedEarlier (tracked.spans span old)
      omega
    · omega

end Codegen.Source
