import Codegen.Source.Literal
import Codegen.Text.Naming
import Codegen.Text.Quoted

/-!
The tokens of a source text, told from the moves of the lexer. A line end ends a statement unless a
bracket is open, and the margins of lines begin and end blocks. A template stands as the tokens of its
fields between two tokens of its own; its text counts only where it ends a format. Three quotes that
open a literal count as an empty literal in front of it, since literals that stand side by side are one.

A text that the lexer refuses has no tokens, and neither has one in which a name, a numeral, an operator
or an escape is malformed. Whether an escape by name names a character is not asked.
-/
namespace Codegen.Source

inductive Token where
  | word (s : String)
  | number (imaginary : Bool)
  | literal (bytes : Bool)
  | template
  | templateEnd
  | text
  | mark (s : String)
  | newline
  | indent
  | dedent
  deriving DecidableEq, Repr, Inhabited

inductive Escape where
  | complete
  | digits (left value : Nat)
  | named (size : Option Nat)
  deriving DecidableEq, Repr

namespace Escape

def maxCharacter : Nat := 0x10ffff

def begin_ (bytes : Bool) (c : Char) : Escape :=
  if c = 'x' then .digits 2 0
  else if bytes then .complete
  else if c = 'u' then .digits 4 0
  else if c = 'U' then .digits 8 0
  else if c = 'N' then .named none
  else .complete

def digit (left value : Nat) (c : Char) : Option Escape := do
  let value := value * 16 + (← Text.hexDigitOf? c)
  if maxCharacter < value then none
  else if left ≤ 1 then some .complete
  else some (.digits (left - 1) value)

def letter (size : Nat) (c : Char) : Option Escape :=
  if c = '\x7d' then if size = 0 then none else some .complete
  else if c.isAlphanum ∨ c = ' ' ∨ c = '-' then some (.named (some (size + 1)))
  else none

def next : Escape → Char → Option Escape
  | .complete, _ => some .complete
  | .digits left value, c => digit left value c
  | .named none, c => if c = '\x7b' then some (.named (some 0)) else none
  | .named (some size), c => letter size c

end Escape

inductive Part where
  | none
  | word (read : List Char) (joined : Bool)
  | number (read : List Char)
  | mark (s : String)
  | content (bytes raw : Bool) (escape : Escape)
  deriving DecidableEq, Repr

namespace Token

def plainBreaks : List Char → List Char
  | '\r' :: '\n' :: rest => '\n' :: plainBreaks rest
  | '\r' :: rest => '\n' :: plainBreaks rest
  | c :: rest => c :: plainBreaks rest
  | [] => []

def joiningWords : List String :=
  ["and", "else", "for", "if", "in", "is", "not", "or"]

def marks : List String :=
  ["**=", "//=", ">>=", "<<=", "...", "**", "//", ">>", "<<", "<=", ">=", "==", "!=", "->", "+=", "-=",
    "*=", "/=", "%=", "&=", "|=", "^=", "@=", ":=", "+", "-", "*", "/", "%", "@", "&", "|", "^", "~",
    "<", ">", "(", ")", "[", "]", "\x7b", "\x7d", ",", ":", ".", ";", "=", "!"]

def maxDigits : Nat := 4300

def isWhole (digits : List Char) : Bool :=
  digits.head? ≠ some '0' && decide ((digits.filter (· ≠ '_')).length ≤ maxDigits)

def word? (read : List Char) (joined : Bool) : Option Token :=
  let s := String.ofList read.reverse
  if Text.isName read.reverse ∧ (joined → s ∈ joiningWords) then some (.word s) else none

def number? (place : Place) (read : List Char) : Option Token :=
  match place with
  | .numeral .whole => if isWhole read.reverse then some (.number false) else none
  | .numeral .exponent => none
  | _ => some (.number (place = .numeral .imaginary))

def marks? (s : String) : Option (List Token) :=
  if s = ".." then some [.mark ".", .mark "."] else if s ∈ marks then some [.mark s] else none

structure State where
  lexer : Lexer := {}
  part : Part := .none
  found : List Token := []
  deriving DecidableEq, Repr

namespace State

def add (state : State) (token : Token) (part : Part := .none) : State :=
  { state with part := part, found := token :: state.found }

def goOn (state : State) (part : Part) : State :=
  { state with part := part }

def endPart (state : State) : Option State :=
  match state.part with
  | .none => some state
  | .word read joined => (word? read joined).map state.add
  | .number read => (number? state.lexer.place read).map state.add
  | .mark s =>
    (marks? s).map (fun tokens => { state with part := .none, found := tokens ++ state.found })
  | .content _ _ escape => if escape = .complete then some (state.goOn .none) else none

def turnTo (state : State) (part : Part) : Option State :=
  state.endPart.map (·.goOn part)

/- A field names its conversion directly behind the mark of it. -/
def gap (state : State) : Option State :=
  if state.part = .mark "!" then none else state.endPart

def endLine (state : State) (after : Lexer) : State :=
  if state.lexer.place matches .text _ then state.add .text
  else if after.level = 0 ∧ state.found.head?.any (· ≠ newline) then state.add .newline
  else state

def block (state : State) (after : Lexer) : State :=
  let before := state.lexer.indents.length
  let tokens :=
    if before < after.indents.length then [indent]
    else List.replicate (before - after.indents.length) dedent
  { state with found := tokens ++ state.found }

def nameChar (state : State) (c : Char) : Option State :=
  match state.part, state.lexer.place with
  | .word read joined, _ => some (state.goOn (.word (c :: read) joined))
  | .number (e :: _), .numeral .exponent => some (state.add (.number false) (.word [c, e] true))
  | .number _, _ => state.turnTo (.word [c] true)
  | _, _ => state.turnTo (.word [c] false)

def digit (state : State) (c : Char) : Option State :=
  match state.part, state.lexer.place with
  | .number _, .numeral .imaginary => none
  | .number read, _ => some (state.goOn (.number (c :: read)))
  | .mark ".", _ => some (state.goOn (.number [c, '.']))
  | .mark "..", _ => some (state.add (.mark ".") (.number [c, '.']))
  | _, _ => state.turnTo (.number [c])

def sign (state : State) (c : Char) : Option State :=
  match state.part with
  | .mark s =>
    if s.push c ∈ ".." :: marks then some (state.goOn (.mark (s.push c)))
    else state.turnTo (.mark (String.singleton c))
  | _ => state.turnTo (.mark (String.singleton c))

def content (state : State) (c : Char) : Option State :=
  match state.part with
  | .content bytes raw escape =>
    let escaped := state.lexer.place matches .escaped .. | .textEscaped ..
    if bytes ∧ 0x80 ≤ c.toNat then none
    else if escaped ∧ !raw ∧ escape = .complete then
      some (state.goOn (.content bytes raw (.begin_ bytes c)))
    else (escape.next c).map (fun escape => state.goOn (.content bytes raw escape))
  | _ => some state

def openText (state : State) (after : Lexer) : State :=
  state.goOn (.content false (after.templates.head?.any (fun t => t.raw && t.fields = 0)) .complete)

def text (state : State) (after : Lexer) (c : Char) : Option State :=
  match state.lexer.place with
  | .opening _ _ => state.content c
  | .text _ | .textEscaped _ | .textNamed =>
    if after.level < state.lexer.level then
      state.endPart.map (fun state => ((state.add .text).add (.mark "\x7d")).openText after)
    else state.content c
  | place =>
    if place = .brace c then some (state.openText after)
    else ((state.sign c).bind endPart).map (·.openText after)

def other (state : State) (after : Lexer) (c : Char) : Option State :=
  match after.place with
  | .letters _ | .word => state.nameChar c
  | .numeral _ => state.digit c
  | .dots _ => state.sign c
  | .gap => if isIndent c ∨ c = '\n' then state.gap else state.sign c
  | .literal .. | .escaped .. => state.content c
  | .text _ | .textEscaped _ | .textNamed => state.text after c
  | .brace _ => state.turnTo (if c = '\x7b' then .mark "\x7b" else .none)
  | .comment => if state.lexer.place = .comment then some state else state.gap
  | place => if c = '\n' ∧ place = .fresh then state.gap.map (·.endLine after) else state.gap

def opened (state : State) (after : Lexer) (bytes raw : Bool) : State :=
  let isPlain := after.place matches .opening _ .plain | .literal ..
  state.add (if isPlain then .literal bytes else .template) (.content bytes raw .complete)

def closed (state : State) (after : Lexer) : State :=
  let isTemplate :=
    decide (after.templates.length < state.lexer.templates.length)
      || state.lexer.place matches .opening _ (.template _)
  if isTemplate then state.add .templateEnd state.part else state

def quote (state : State) (turn : Lexer.Turn) (after : Lexer) (c : Char) : Option State :=
  match turn, state.lexer.place, state.part with
  | .stays, .comment, _ => some state
  | .stays, _, _ => state.content c
  | .opens, .letters read, _ => some (state.opened after ('b' ∈ read) ('r' ∈ read))
  | .opens, .doubled quoted _, .content bytes raw _ =>
    if c = quoted then some (state.opened after bytes raw) else some (state.opened after false false)
  | .opens, _, _ => state.endPart.map (·.opened after false false)
  | .closes, _, .content _ _ escape => if escape = .complete then some (state.closed after) else none
  | .closes, _, _ => some (state.closed after)

end State

def step (state : State) (c : Char) : Option State := do
  if isQuote c then
    let (turn, after) ← state.lexer.quote c
    let state ← (state.block after).quote turn after c
    some { state with lexer := after }
  else
    let after ← state.lexer.other c
    let state ← (state.block after).other after c
    some { state with lexer := after }

def finish (state : State) : Option (List Token) :=
  if state.lexer.place = .fresh ∧ state.lexer.level = 0 then
    some (state.found.reverse ++ List.replicate (state.lexer.indents.length - 1) dedent)
  else none

def ofText? (code : String) : Option (List Token) :=
  if '\x00' ∈ code.toList then none
  else
    let cs := plainBreaks code.toList
    ((cs ++ Literal.lineEnd cs).foldlM step {}).bind finish

end Token
end Codegen.Source
