import Codegen.Source.Lexer

/-!
The string literals of a source text that run over several lines, as spans of line numbers. A literal
inside a field of a template has a span of its own. Where a part of the text is refused, or the text ends
inside a literal, a bracket or a statement that is carried on, none of its literals counts.
-/
namespace Codegen.Source

structure Span where
  first : Nat
  last : Nat
  deriving DecidableEq, Repr

def Span.continuedAt (span : Span) (line : Nat) : Bool :=
  span.first < line ∧ line ≤ span.last

namespace Literal

structure State where
  lexer : Lexer := {}
  line : Nat := 1
  opened : List Nat := []
  spans : List Span := []
  deriving DecidableEq, Repr

def State.complete (state : State) : Bool :=
  state.lexer.place = .fresh ∧ state.lexer.level = 0

def State.atRest (state : State) : Bool :=
  state.complete ∧ state.opened = []

def State.turned (state : State) (lexer : Lexer) : Lexer.Turn → Option State
  | .stays => some { state with lexer := lexer }
  | .opens => some { state with lexer := lexer, opened := state.line :: state.opened }
  | .closes =>
    match state.opened with
    | [] => none
    | first :: outer =>
      let found : List Span := if first < state.line then [⟨first, state.line⟩] else []
      some { state with lexer := lexer, opened := outer, spans := state.spans ++ found }

def step (state : State) (c : Char) : Option State :=
  if isQuote c then (state.lexer.quote c).bind (fun (turn, lexer) => state.turned lexer turn)
  else
    (state.lexer.other c).map (fun lexer =>
      { state with lexer := lexer, line := if c = '\n' then state.line + 1 else state.line })

def lineEnd (cs : List Char) : List Char :=
  if cs = [] ∨ cs.getLast? = some '\n' then [] else ['\n']

def read (code : String) : Option (List Span) :=
  if '\x00' ∈ code.toList then none
  else
    ((code.toList ++ lineEnd code.toList).foldlM step {}).bind
      (fun state => if state.complete then some state.spans else none)

end Literal

def literalSpans (code : String) : List Span :=
  (Literal.read code).getD []

def inLiteral (spans : List Span) (line : Nat) : Bool :=
  spans.any (·.continuedAt line)

end Codegen.Source
