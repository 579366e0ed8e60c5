import Codegen.Decimal
import Codegen.Text.Lines
import Codegen.Text.Quoted
import Codegen.Value

/-!
The text of a value in messages. Texts are quoted, except where a text alone is displayed, and the
members of an object keep their order.
-/
namespace Codegen.Value

def separated (opening closing : String) (items : List String) : String :=
  opening ++ Text.join ", " items ++ closing

mutual

def literal : Value → String
  | null => "None"
  | bool true => "True"
  | bool false => "False"
  | int n => toString n
  | float x => x.textWith "inf" "nan"
  | text s => Text.quoted s
  | list items => separated "[" "]" (literalItems items)
  | object members => separated "\x7b" "\x7d" (literalMembers members)

def literalItems : List Value → List String
  | [] => []
  | item :: rest => literal item :: literalItems rest

def literalMembers : List (String × Value) → List String
  | [] => []
  | (key, value) :: rest => (Text.quoted key ++ ": " ++ literal value) :: literalMembers rest

end

def display : Value → String
  | text s => s
  | value => literal value

end Codegen.Value
