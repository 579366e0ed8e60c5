import Codegen.Source.Numeral

/-!
The characters of a source text one after another, as far as they tell where a literal begins and ends.

Between two statements the indentation of a line has to return to one that is open. Brackets, and a
backslash before a line end, carry a statement on. A template is a literal whose fields hold code, so
that other literals, comments and line ends stand inside it. Text that breaks one of these rules, or in
which a literal, a name or a numeral is malformed, is refused.
-/
namespace Codegen.Source

def isQuote (c : Char) : Bool :=
  c = '"' || c = '\x27'

def isIndent (c : Char) : Bool :=
  c = ' ' || c = '\t' || c = '\x0c'

/-- An indentation by its column and by its number of characters; two of them have to compare in the
same way by both. -/
structure Margin where
  column : Nat := 0
  width : Nat := 0
  deriving DecidableEq, Repr

namespace Margin

def tabStop : Nat := 8

def maxOpen : Nat := 100

def after (m : Margin) (c : Char) : Margin :=
  if c = ' ' then ⟨m.column + 1, m.width + 1⟩
  else if c = '\t' then ⟨(m.column / tabStop + 1) * tabStop, m.width + 1⟩
  else {}

def ofBlanks (blanks : List Char) : Margin :=
  blanks.foldl after {}

def indentTo (m : Margin) (open_ : List Margin) : Option (List Margin) :=
  match open_ with
  | [] => some [m]
  | top :: _ =>
    if top.column < m.column then
      if top.width < m.width ∧ open_.length < maxOpen then some (m :: open_) else none
    else
      let kept := open_.dropWhile (fun outer => m.column < outer.column)
      if kept.head? = some m then some kept else none

end Margin

inductive LiteralKind where
  | plain
  | template (raw : Bool)
  deriving DecidableEq, Repr

/-- A template that is open. Its depth counts the brackets that are open in it; it is at its text, or at
a format of a field, where no bracket is open but those of its fields. -/
structure Template where
  mark : Char
  triple : Bool
  raw : Bool
  depth : Int := 0
  fields : Nat := 0
  named : Bool := false
  deriving DecidableEq, Repr

inductive Place where
  | margin (m : Margin) (held : Nat) (carried : Bool)
  | carries (returned : Bool) (back : Place)
  | gap
  | comment
  | returned
  | letters (read : List Char)
  | word
  | numeral (n : Numeral)
  | dots (n : Nat)
  | opening (mark : Char) (kind : LiteralKind)
  | doubled (mark : Char) (kind : LiteralKind)
  | literal (mark : Char) (triple : Bool) (run : Nat)
  | escaped (mark : Char) (triple : Bool) (returned : Bool)
  | text (run : Nat)
  | textEscaped (returned : Bool)
  | textNamed
  | brace (c : Char)
  deriving DecidableEq, Repr

def Place.fresh : Place :=
  .margin {} 0 false

structure Lexer where
  place : Place := .fresh
  level : Nat := 0
  indents : List Margin := [{}]
  templates : List Template := []
  deriving DecidableEq, Repr

namespace Lexer

def maxLevel : Nat := 200

def maxTemplates : Nat := 150

def maxFields : Nat := 3

def goTo (lexer : Lexer) (place : Place) : Lexer :=
  { lexer with place := place }

def isNameStart (c : Char) : Bool :=
  c.isAlpha || c = '_' || 0x80 ≤ c.toNat

def isNameChar (c : Char) : Bool :=
  isNameStart c || c.isDigit

def isMark (c : Char) : Bool :=
  0x20 ≤ c.toNat && c.toNat < 0x7f

def literalStarts : List (List Char) :=
  [['b'], ['f'], ['r'], ['u'], ['b', 'r'], ['r', 'b'], ['f', 'r'], ['r', 'f']]

def kindOf (letters : List Char) : LiteralKind :=
  if 'f' ∈ letters then .template ('r' ∈ letters) else .plain

def openBracket (lexer : Lexer) : Option Lexer :=
  if lexer.level < maxLevel then
    some
      { lexer with
        place := .gap, level := lexer.level + 1
        templates := lexer.templates.modifyHead (fun t => { t with depth := t.depth + 1 }) }
  else none

/- Brackets need not match, and inside a template more of them may be closed than were opened. -/
def closeBracket (lexer : Lexer) (c : Char) : Option Lexer :=
  let level := lexer.level - 1
  match lexer.templates with
  | [] => some { lexer with place := .gap, level := level }
  | t :: rest =>
    if c = '\x7d' ∧ t.depth = 0 then none
    else if c = '\x7d' ∧ t.depth = t.fields then
      let outer := { t with depth := t.depth - 1, fields := t.fields - 1 }
      some { lexer with place := .text 0, level := level, templates := outer :: rest }
    else
      some
        { lexer with
          place := .gap, level := level, templates := { t with depth := t.depth - 1 } :: rest }

def colon (lexer : Lexer) : Lexer :=
  match lexer.templates with
  | [] => lexer.goTo .gap
  | t :: _ => if t.fields ≠ 0 ∧ t.depth = t.fields then lexer.goTo (.text 0) else lexer.goTo .gap

def openField (lexer : Lexer) : Option Lexer :=
  match lexer.templates with
  | [] => none
  | t :: rest =>
    if t.fields < maxFields then
      openBracket
        { lexer with templates := { t with fields := t.fields + 1, named := false } :: rest }
    else none

def sign (lexer : Lexer) (c : Char) : Option Lexer :=
  if c = '\n' then some (lexer.goTo .fresh)
  else if c = '.' then some (lexer.goTo (.dots 1))
  else if c.isDigit then some (lexer.goTo (.numeral (.ofDigit c)))
  else if c = '\\' then some (lexer.goTo (.carries false .gap))
  else if c = '(' ∨ c = '[' ∨ c = '\x7b' then lexer.openBracket
  else if c = ')' ∨ c = ']' ∨ c = '\x7d' then lexer.closeBracket c
  else if c = ':' then some lexer.colon
  else if isMark c then some (lexer.goTo .gap)
  else none

def token (lexer : Lexer) (c : Char) : Option Lexer :=
  if isIndent c then some (lexer.goTo .gap)
  else if c = '#' then some (lexer.goTo .comment)
  else if c = '\r' then some (lexer.goTo .returned)
  else if isNameStart c then
    if [c.toLower] ∈ literalStarts then some (lexer.goTo (.letters [c.toLower]))
    else some (lexer.goTo .word)
  else lexer.sign c

def statement (lexer : Lexer) (m : Margin) (held : Nat) : Option Lexer :=
  if lexer.level = 0 then
    ((if held = 0 then m else ⟨held, held⟩ : Margin).indentTo lexer.indents).map
      (fun indents => { lexer with indents := indents })
  else some lexer

def wordChar (lexer : Lexer) (c : Char) : Option Lexer :=
  if isNameChar c then some (lexer.goTo .word) else lexer.token c

def afterNumeral (lexer : Lexer) (n : Numeral) (c : Char) : Option Lexer :=
  match n.takes c with
  | some n => some (lexer.goTo (.numeral n))
  | none =>
    if ¬ n.endsBefore c then none
    else if n = .exponent then lexer.wordChar c
    else lexer.token c

def begin_ (lexer : Lexer) (mark : Char) (triple : Bool) : LiteralKind → Lexer
  | .plain => lexer.goTo (.literal mark triple 0)
  | .template raw =>
    { lexer with place := .text 0, templates := ⟨mark, triple, raw, 0, 0, false⟩ :: lexer.templates }

def literalChar (lexer : Lexer) (mark : Char) (triple : Bool) (c : Char) : Option Lexer :=
  if c = '\\' then some (lexer.goTo (.escaped mark triple false))
  else if c = '\n' ∧ !triple then none
  else some (lexer.goTo (.literal mark triple 0))

def textChar (lexer : Lexer) (c : Char) : Option Lexer :=
  match lexer.templates with
  | [] => none
  | t :: rest =>
    let plain := { lexer with templates := { t with named := false } :: rest }
    if c = '\\' then some (lexer.goTo (.textEscaped false))
    else if c = '\x7b' then if t.fields = 0 then some (plain.goTo (.brace c)) else lexer.openField
    else if c = '\x7d' then
      if t.named then some (plain.goTo (.text 0))
      else if t.fields = 0 then some (lexer.goTo (.brace c))
      else lexer.closeBracket c
    else if c = '\n' ∧ !t.triple then if t.fields = 0 then none else some (plain.goTo .fresh)
    else some (lexer.goTo (.text 0))

def textEscape (lexer : Lexer) (returned : Bool) (c : Char) : Option Lexer :=
  let raw := lexer.templates.head?.any Template.raw
  if c = '\r' ∧ !returned then some (lexer.goTo (.textEscaped true))
  else if c = '\x7b' ∨ c = '\x7d' then lexer.textChar c
  else if c = 'N' ∧ !raw then some (lexer.goTo .textNamed)
  else some (lexer.goTo (.text 0))

def textName (lexer : Lexer) (c : Char) : Option Lexer :=
  if c = '\x7b' then
    some
      { lexer with
        place := .text 0, templates := lexer.templates.modifyHead (fun t => { t with named := true }) }
  else lexer.textChar c

def other (lexer : Lexer) (c : Char) : Option Lexer :=
  match lexer.place with
  | .margin m held carried =>
    if isIndent c then some (lexer.goTo (.margin (m.after c) held carried))
    else if c = '\\' then
      some (lexer.goTo (.carries false (.margin m (if held = 0 then m.column else held) true)))
    else if c = '#' ∨ c = '\n' ∨ c = '\r' then lexer.token c
    else (lexer.statement m held).bind (·.token c)
  | .carries returned back =>
    if c = '\n' then some (lexer.goTo back)
    else if c = '\r' ∧ !returned then some (lexer.goTo (.carries true back))
    else none
  | .gap => lexer.token c
  | .comment =>
    if c = '\n' then some (lexer.goTo .fresh)
    else if c = '\r' then some (lexer.goTo .returned)
    else some lexer
  | .returned => lexer.sign c
  | .letters read =>
    if read ++ [c.toLower] ∈ literalStarts then some (lexer.goTo (.letters (read ++ [c.toLower])))
    else lexer.wordChar c
  | .word => lexer.wordChar c
  | .numeral n => lexer.afterNumeral n c
  | .dots n =>
    if c = '.' then some (lexer.goTo (if n = 1 then .dots 2 else .gap))
    else if c.isDigit then some (lexer.goTo (.numeral .fraction))
    else lexer.token c
  | .opening mark .plain => lexer.literalChar mark false c
  | .opening mark kind => (lexer.begin_ mark false kind).textChar c
  | .doubled _ _ => lexer.token c
  | .literal mark triple _ => lexer.literalChar mark triple c
  | .escaped mark triple returned =>
    if c = '\r' ∧ !returned then some (lexer.goTo (.escaped mark triple true))
    else some (lexer.goTo (.literal mark triple 0))
  | .text _ => lexer.textChar c
  | .textEscaped returned => lexer.textEscape returned c
  | .textNamed => lexer.textName c
  | .brace b =>
    if b = c then some (lexer.goTo (.text 0))
    else if b = '\x7b' then lexer.openField.bind (·.token c)
    else none

inductive Turn where
  | stays
  | opens
  | closes
  deriving DecidableEq, Repr

def opensLiteral (lexer : Lexer) (mark : Char) (kind : LiteralKind) : Option (Turn × Lexer) :=
  if kind ≠ .plain ∧ maxTemplates ≤ lexer.templates.length + 1 then none
  else some (.opens, lexer.goTo (.opening mark kind))

def ending (lexer ended : Lexer) (triple : Bool) (run : Nat) (longer : Nat → Place) : Turn × Lexer :=
  if triple ∧ run < 2 then (.stays, lexer.goTo (longer (run + 1))) else (.closes, ended.goTo .gap)

def textQuote (lexer : Lexer) (run : Nat) (c : Char) : Option (Turn × Lexer) :=
  match lexer.templates with
  | [] => none
  | t :: rest =>
    if c = t.mark then some (lexer.ending { lexer with templates := rest } t.triple run .text)
    else some (.stays, lexer.goTo (.text 0))

/-- A quote, and whether it opens or closes a literal. Two quotes are an empty literal; with a third one
another literal begins at once. -/
def quote (lexer : Lexer) (c : Char) : Option (Turn × Lexer) :=
  match lexer.place with
  | .margin m held _ => (lexer.statement m held).bind (·.opensLiteral c .plain)
  | .comment => some (.stays, lexer)
  | .gap => lexer.opensLiteral c .plain
  | .returned => lexer.opensLiteral c .plain
  | .word => lexer.opensLiteral c .plain
  | .dots _ => lexer.opensLiteral c .plain
  | .letters read => lexer.opensLiteral c (kindOf read)
  | .numeral n => if n.endsBefore c then lexer.opensLiteral c .plain else none
  | .carries _ _ => none
  | .opening mark kind =>
    if c = mark then some (.closes, lexer.goTo (.doubled mark kind))
    else some (.stays, lexer.begin_ mark false kind)
  | .doubled mark kind =>
    if c = mark then some (.opens, lexer.begin_ mark true kind) else lexer.opensLiteral c .plain
  | .literal mark triple run =>
    if c = mark then some (lexer.ending lexer triple run (.literal mark triple))
    else some (.stays, lexer.goTo (.literal mark triple 0))
  | .escaped mark triple _ => some (.stays, lexer.goTo (.literal mark triple 0))
  | .text run => lexer.textQuote run c
  | .textEscaped _ => some (.stays, lexer.goTo (.text 0))
  | .textNamed => lexer.textQuote 0 c
  | .brace b => if b = '\x7b' then lexer.openField.bind (·.opensLiteral c .plain) else none

end Lexer
end Codegen.Source
