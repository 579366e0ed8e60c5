import Codegen.Import.Block
import Codegen.Source.Spacing

/-!
From the parts of a file to its text. A file consists of a header, import statements and fragments,
and a serializer says how fragments and imports are written and how the three are put together.
-/
namespace Codegen

inductive Fragment where
  | text (s : String)
  | node (tree : Source.Node)
  | other (value : Value)
  deriving Inhabited, Repr

structure Serializer where
  body : List Fragment → Except Error String
  imports : List Statement → Except Error String
  tidy : String → String
  assemble : Option String → String → String → String

namespace Fragment

def source : Fragment → Except Error String
  | text s => .ok (Text.strip '\n' s)
  | node tree => .ok tree.text
  | other value => .error (.unprintable value.kindName)

def display : Fragment → String
  | text s => s
  | node tree => tree.text
  | other value => value.display

end Fragment

namespace Serializer

def joinSources (fragments : List Fragment) : Except Error String := do
  let parts ← fragments.mapM Fragment.source
  .ok (Text.join "\n" (parts.filter (· ≠ "")))

def assembleModule (header : Option String) (imports body : String) : String :=
  if imports ≠ "" ∧ body ≠ "" then header.getD "" ++ imports ++ "\n\n\n" ++ body
  else header.getD "" ++ (if imports ≠ "" then imports ++ "\n" else body)

def assembleSections (header : Option String) (imports body : String) : String :=
  header.getD "" ++ Text.join "\n\n" ([imports, body].filter (· ≠ ""))

def standard : Serializer :=
  { body := joinSources
    imports := Statement.render
    tidy := Source.normalize
    assemble := assembleModule }

def plainImport (s : Statement) : String :=
  s.source ++ "(" ++ Text.join "," s.named ++ ")"

def plain : Serializer :=
  { body := fun fragments => .ok (Text.join "|" (fragments.map Fragment.display))
    imports := fun statements => .ok (Text.join ";" (statements.map plainImport))
    tidy := id
    assemble := assembleSections }

end Serializer
end Codegen
