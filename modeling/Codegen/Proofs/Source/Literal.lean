import Codegen.Proofs.Text.Lines
import Codegen.Source.Literal

/-! Where the literals of a text stand. A literal over several lines is opened on one line and closed on
a later one, and a quote stands on the line that closes it. -/
namespace Codegen.Source

namespace Literal

def lineAfter (read : List Char) : Nat :=
  read.count '\n' + 1

theorem lineAfterSnoc (read : List Char) (c : Char) :
    lineAfter (read ++ [c]) = if c = '\n' then lineAfter read + 1 else lineAfter read := by
  rw [lineAfter, List.count_append, List.count_singleton, lineAfter]
  by_cases ends : c = '\n' <;> simp [ends]

theorem quotePlain {c : Char} (quote : isQuote c = true) : c ≠ '\n' := by
  rintro rfl
  cases quote

inductive Stepped (state : State) (c : Char) : State → Prop where
  | passes (lexer : Lexer) : Stepped state c
      { state with lexer := lexer, line := if c = '\n' then state.line + 1 else state.line }
  | opens (lexer : Lexer) (quote : isQuote c = true) : Stepped state c
      { state with lexer := lexer, opened := state.line :: state.opened }
  | closes (lexer : Lexer) {first : Nat} {outer : List Nat} (opened : state.opened = first :: outer)
      (quote : isQuote c = true) : Stepped state c
      { state with
        lexer := lexer, opened := outer
        spans := state.spans ++ if first < state.line then [⟨first, state.line⟩] else [] }

theorem stepForms {state next : State} {c : Char} (ok : step state c = some next) :
    Stepped state c next := by
  unfold step at ok
  split at ok
  · rename_i quote
    obtain ⟨⟨turn, lexer⟩, _, turned⟩ := Option.bind_eq_some_iff.mp ok
    cases turn with
    | stays =>
      cases turned
      have passed : Stepped state c _ := .passes lexer
      rwa [if_neg (quotePlain quote)] at passed
    | opens =>
      cases turned
      exact .opens lexer quote
    | closes =>
      simp only [State.turned] at turned
      split at turned
      · cases turned
      · rename_i opened
        cases turned
        exact .closes lexer opened quote
  · obtain ⟨lexer, _, rfl⟩ := Option.map_eq_some_iff.mp ok
    exact .passes lexer

theorem foldKept {P : List Char → State → Prop}
    (kept : ∀ {read state c next}, P read state → step state c = some next → P (read ++ [c]) next)
    (read : List Char) {rest : List Char} {state last : State} (start : P read state)
    (ok : rest.foldlM step state = some last) : P (read ++ rest) last := by
  induction rest generalizing read state with
  | nil =>
    cases ok
    rwa [List.append_nil]
  | cons c rest ih =>
    rw [List.foldlM_cons] at ok
    obtain ⟨next, first, later⟩ := Option.bind_eq_some_iff.mp ok
    simpa using ih (read ++ [c]) (kept start first) later

structure Closed (read : List Char) (span : Span) : Prop where
  starts : 0 < span.first
  longer : span.first < span.last
  closing : ∃ before c after, read = before ++ c :: after ∧ isQuote c = true ∧
    span.last = lineAfter before

theorem Closed.later {read : List Char} {span : Span} (closed : Closed read span) (more : List Char) :
    Closed (read ++ more) span := by
  obtain ⟨before, c, after, rfl, quote, last⟩ := closed.closing
  exact ⟨closed.starts, closed.longer, before, c, after ++ more, by simp, quote, last⟩

structure Tracked (read : List Char) (state : State) : Prop where
  here : state.line = lineAfter read
  opened : ∀ first ∈ state.opened, 0 < first
  spans : ∀ span ∈ state.spans, Closed read span

theorem trackedStart : Tracked [] {} :=
  ⟨rfl, fun _ member => (by cases member), fun _ member => (by cases member)⟩

theorem trackedStep {read : List Char} {state next : State} {c : Char} (tracked : Tracked read state)
    (ok : step state c = some next) : Tracked (read ++ [c]) next := by
  obtain ⟨here, opened, spans⟩ := tracked
  have older : ∀ span ∈ state.spans, Closed (read ++ [c]) span := fun span member =>
    (spans span member).later [c]
  have snoc := lineAfterSnoc read c
  cases stepForms ok with
  | passes => exact ⟨by rw [snoc, here], opened, older⟩
  | opens _ quote =>
    rw [if_neg (quotePlain quote)] at snoc
    refine ⟨by rw [snoc, here], List.forall_mem_cons.mpr ⟨?_, opened⟩, older⟩
    rw [here, lineAfter]
    omega
  | @closes _ first outer top quote =>
    rw [if_neg (quotePlain quote)] at snoc
    rw [top] at opened
    obtain ⟨starts, others⟩ := List.forall_mem_cons.mp opened
    refine ⟨by rw [snoc, here], others, fun span member => ?_⟩
    rcases List.mem_append.mp member with old | new
    · exact older span old
    · split at new
      · rename_i longer
        cases List.mem_singleton.mp new
        exact ⟨starts, longer, read, c, [], rfl, quote, here⟩
      · cases new

theorem trackedFold {read rest : List Char} {state last : State} (tracked : Tracked read state)
    (ok : rest.foldlM step state = some last) : Tracked (read ++ rest) last :=
  foldKept trackedStep read tracked ok

theorem readForms {code : String} {spans : List Span} (ok : read code = some spans) :
    ∃ last, (code.toList ++ lineEnd code.toList).foldlM step {} = some last ∧ last.spans = spans := by
  unfold read at ok
  split at ok
  · cases ok
  · obtain ⟨last, done, final⟩ := Option.bind_eq_some_iff.mp ok
    split at final
    · exact ⟨last, done, Option.some.inj final⟩
    · cases final

theorem lineEndForms (cs : List Char) : lineEnd cs = [] ∨ lineEnd cs = ['\n'] := by
  unfold lineEnd
  split
  · exact .inl rfl
  · exact .inr rfl

/- A line end that is added at the end is not the quote. -/
theorem closedWithin {cs : List Char} {span : Span} (closed : Closed (cs ++ lineEnd cs) span) :
    Closed cs span := by
  refine ⟨closed.starts, closed.longer, ?_⟩
  obtain ⟨before, c, after, text, quote, last⟩ := closed.closing
  rcases lineEndForms cs with none | ended
  · rw [none, List.append_nil] at text
    exact ⟨before, c, after, text, quote, last⟩
  · rw [ended] at text
    rcases List.eq_nil_or_concat after with rfl | ⟨front, final, rfl⟩
    · exact absurd (List.append_inj' text rfl).2.symm (by simp [quotePlain quote])
    · rw [List.concat_eq_append, ← List.cons_append, ← List.append_assoc] at text
      exact ⟨before, c, front, (List.append_inj' text rfl).1, quote, last⟩

theorem readClosed {code : String} {spans : List Span} (ok : read code = some spans) :
    ∀ span ∈ spans, Closed code.toList span := by
  obtain ⟨last, done, rfl⟩ := readForms ok
  have tracked := trackedFold trackedStart done
  exact fun span member => closedWithin (tracked.spans span member)

end Literal

structure Span.Within (span : Span) (lines : List String) : Prop where
  starts : 0 < span.first
  longer : span.first < span.last
  closing : ∃ line, lines[span.last - 1]? = some line ∧ ∃ c ∈ line.toList, isQuote c = true

theorem literalWithin {code : String} {span : Span} (member : span ∈ literalSpans code) :
    span.Within (Text.lines code) := by
  cases ok : Literal.read code with
  | none => simp [literalSpans, ok] at member
  | some spans =>
    rw [literalSpans, ok, Option.getD_some] at member
    obtain ⟨starts, longer, before, c, after, text, quote, last⟩ := Literal.readClosed ok span member
    obtain ⟨piece, found, inside⟩ := Text.cutAt (Literal.quotePlain quote) before after
    refine ⟨starts, longer, String.ofList piece, ?_, c, by rwa [String.toList_ofList], quote⟩
    have index : span.last - 1 = before.count '\n' := by
      rw [last, Literal.lineAfter]
      omega
    rw [index, Text.lines, Text.split, List.getElem?_map, text, found]
    rfl

end Codegen.Source
