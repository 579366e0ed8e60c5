import Codegen.Source.Literal
import Codegen.Text.Blank
import Codegen.Text.Lines

/-!
Spacing between the declarations of a file. Two empty lines go before each declaration on the outermost
level, except at the start of the file and after a decorator; comment lines directly above a declaration
stay with it. Lines that go on with a literal are not taken for declarations.
-/
namespace Codegen.Source

def declarationStarts : List String :=
  ["def ", "async def ", "class ", "@"]

def isDeclaration (line : String) : Bool :=
  declarationStarts.any (Text.startsWith line)

def isComment (line : String) : Bool :=
  Text.startsWith line "#"

def isDecorator (line : String) : Bool :=
  Text.startsWith line "@"

def spaced (above : List String) : List String :=
  let comments := above.takeWhile isComment
  let rest := above.dropWhile isComment
  match rest with
  | [] => comments
  | last :: _ =>
    if isDecorator last then comments ++ rest
    else
      match rest.dropWhile Text.allBlank with
      | [] => comments
      | kept => comments ++ "" :: "" :: kept

def takeLine (spans : List Span) (above : List String) (line : String × Nat) : List String :=
  if !inLiteral spans line.2 && isDeclaration line.1 then line.1 :: spaced above
  else line.1 :: above

def ended (taken : List String) : String :=
  match taken.dropWhile Text.allBlank with
  | [] => ""
  | kept => Text.join "\n" kept.reverse ++ "\n"

def normalize (code : String) : String :=
  ended (((Text.lines code).zipIdx 1).foldl (takeLine (literalSpans code)) [])

end Codegen.Source
