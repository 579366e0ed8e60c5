import Codegen.Source.Tree
import Codegen.Value.Display

/-!
The text of a source tree. Bodies are indented by four blanks; an empty line goes before each class
and function except where the text begins with it; a branch that is alone in an else part continues
the chain. A text that stands first in a class, function or program is its documentation and is
written between triple quotes, as far as possible without escapes.
-/
namespace Codegen.Source

namespace Docstring

def escapeChar (c : Char) : List Char :=
  if c = '\n' ∨ c = '\t' then [c]
  else if c = '\\' then ['\\', '\\']
  else if c = '\r' then ['\\', 'r']
  else if Text.isPrintable c then [c]
  else Text.codeEscape c

def triple (mark : Char) : List Char :=
  [mark, mark, mark]

def holds (piece : List Char) : List Char → Bool
  | [] => piece.isEmpty
  | c :: rest => piece.isPrefixOf (c :: rest) || holds piece rest

def enclose (mark : Char) (escaped : List Char) : List Char :=
  let inner :=
    if escaped.getLast? = some mark then escaped.dropLast ++ ['\\', mark] else escaped
  triple mark ++ inner ++ triple mark

/-- The kind of quote that neither occurs threefold nor ends the text is taken, double quotes first;
if both kinds occur threefold, the text is escaped as a plain literal. -/
def text (s : String) : String :=
  let cs := s.toList
  let escaped := cs.flatMap escapeChar
  let free := ['"', '\x27'].filter (fun mark => !holds (triple mark) escaped)
  match free with
  | [] =>
    let mark := Text.quoteMark cs
    String.ofList (triple mark ++ cs.flatMap (Text.quoteChar mark) ++ triple mark)
  | first :: rest =>
    let mark := ((first :: rest).find? (fun mark => escaped.getLast? ≠ some mark)).getD first
    String.ofList (enclose mark escaped)

end Docstring

namespace Expr

def isWhole : Expr → Bool
  | constant (.int _) => true
  | constant (.bool _) => true
  | _ => false

mutual

def text : Expr → String
  | name id => id
  | constant value => value.literal
  | member owner field => text owner ++ (if isWhole owner then " ." else ".") ++ field
  | subscript owner index => text owner ++ "[" ++ text index ++ "]"
  | call callee args => text callee ++ "(" ++ Text.join ", " (texts args) ++ ")"
  | list items => "[" ++ Text.join ", " (texts items) ++ "]"

def texts : List Expr → List String
  | [] => []
  | e :: rest => text e :: texts rest

end
end Expr

def Alias.text (a : Alias) : String :=
  match a.bound with
  | none => a.name
  | some bound => if bound.isEmpty then a.name else a.name ++ " as " ++ bound

def Param.text (p : Param) : String :=
  match p.annotation with
  | none => p.name
  | some annotation => p.name ++ ": " ++ annotation.text

def optional (mark : String) : Option Expr → String
  | none => ""
  | some e => mark ++ e.text

def indented (depth : Nat) (line : String) : String :=
  String.ofList (List.replicate (4 * depth) ' ') ++ line

def names (aliases : List Alias) : String :=
  Text.join ", " (aliases.map Alias.text)

namespace Stmt

def isDefinition : Stmt → Bool
  | classDef .. => true
  | functionDef .. => true
  | _ => false

def classLine (name : String) (bases : List Expr) : String :=
  if bases.isEmpty then "class " ++ name ++ ":"
  else "class " ++ name ++ "(" ++ Text.join ", " (bases.map Expr.text) ++ "):"

def functionLine (suspends : Bool) (name : String) (params : List Param) (result : Option Expr) :
    String :=
  (if suspends then "async def " else "def ") ++ name ++ "("
    ++ Text.join ", " (params.map Param.text) ++ ")" ++ optional " -> " result ++ ":"

def fromLine (level : Nat) (source : Option String) (aliases : List Alias) : String :=
  "from " ++ String.ofList (List.replicate level '.') ++ source.getD "" ++ " import " ++ names aliases

def decoratorLines (depth : Nat) (decorators : List Expr) : List String :=
  decorators.map (fun e => indented depth ("@" ++ e.text))

def gap (s : Stmt) : List String :=
  if s.isDefinition then [""] else []

mutual

def lines (depth : Nat) : Stmt → List String
  | pass => [indented depth "pass"]
  | giveBack value => [indented depth ("return" ++ optional " " value)]
  | expr value => [indented depth value.text]
  | assign targets value =>
    [indented depth (Text.join "" (targets.map (fun e => e.text ++ " = ")) ++ value.text)]
  | annotated target annotation value =>
    [indented depth (target.text ++ ": " ++ annotation.text ++ optional " = " value)]
  | importModules aliases => [indented depth ("import " ++ names aliases)]
  | importFrom level source aliases => [indented depth (fromLine level source aliases)]
  | branch test body orelse =>
    indented depth ("if " ++ test.text ++ ":") :: bodyLines (depth + 1) body ++ elseLines depth orelse
  | classDef decorators name bases body =>
    decoratorLines depth decorators ++ indented depth (classLine name bases) ::
      suiteLines (depth + 1) body
  | functionDef suspends decorators name params result body =>
    decoratorLines depth decorators ++ indented depth (functionLine suspends name params result) ::
      suiteLines (depth + 1) body

def bodyLines (depth : Nat) : List Stmt → List String
  | [] => []
  | s :: rest => gap s ++ lines depth s ++ bodyLines depth rest

def suiteLines (depth : Nat) : List Stmt → List String
  | [] => []
  | expr (.constant (.text doc)) :: rest =>
    indented depth (Docstring.text doc) :: bodyLines depth rest
  | s :: rest => gap s ++ lines depth s ++ bodyLines depth rest

def elseLines (depth : Nat) : List Stmt → List String
  | [] => []
  | [branch test body orelse] =>
    indented depth ("elif " ++ test.text ++ ":") :: bodyLines (depth + 1) body
      ++ elseLines depth orelse
  | s :: rest =>
    indented depth "else:" :: gap s ++ lines (depth + 1) s ++ bodyLines (depth + 1) rest

end

def text (s : Stmt) : String :=
  Text.join "\n" (lines 0 s)

end Stmt

def programLines : List Stmt → List String
  | [] => []
  | expr@(.expr _) :: rest => Stmt.suiteLines 0 (expr :: rest)
  | s :: rest => s.lines 0 ++ Stmt.bodyLines 0 rest

def Node.text : Node → String
  | stmt s => s.text
  | expr e => e.text
  | program body => Text.join "\n" (programLines body)

end Codegen.Source
