import Codegen.Decimal
import Codegen.Text.Lines
import Codegen.Text.Quoted
import Codegen.Value

/-!
The canonical JSON text of a value: no blanks, the members of every object in ascending order of their
keys, and ASCII only. Values that differ only in the order of members have the same text.
-/
namespace Codegen.Value

def unitEscape (unit : Nat) : List Char :=
  '\\' :: 'u' :: Text.hexDigits 4 unit

def jsonChar (c : Char) : List Char :=
  if c = '"' then ['\\', '"']
  else if c = '\\' then ['\\', '\\']
  else if c = '\n' then ['\\', 'n']
  else if c = '\r' then ['\\', 'r']
  else if c = '\t' then ['\\', 't']
  else if c = '\x0c' then ['\\', 'f']
  else if c = '\x08' then ['\\', 'b']
  else if 0x20 ≤ c.toNat ∧ c.toNat < 0x7f then [c]
  else if c.toNat < 0x10000 then unitEscape c.toNat
  else
    let above := c.toNat - 0x10000
    unitEscape (0xd800 + above / 0x400) ++ unitEscape (0xdc00 + above % 0x400)

def jsonString (s : String) : List Char :=
  '"' :: s.toList.flatMap jsonChar ++ ['"']

def enclosed (opening closing : Char) (items : List (List Char)) : List Char :=
  opening :: (Text.glue ',' items ++ [closing])

def jsonMember (key : String) (value : List Char) : List Char :=
  jsonString key ++ ':' :: value

mutual

def json : Value → List Char
  | null => ['n', 'u', 'l', 'l']
  | bool true => ['t', 'r', 'u', 'e']
  | bool false => ['f', 'a', 'l', 's', 'e']
  | int n => (toString n).toList
  | float x => x.text.toList
  | text s => jsonString s
  | list items => enclosed '[' ']' (jsonItems items)
  | object members =>
    enclosed '\x7b' '\x7d'
      (((jsonMembers members).mergeSort (fun a b => Text.precedes a.1 b.1)).map
        (fun m => jsonMember m.1 m.2))

def jsonItems : List Value → List (List Char)
  | [] => []
  | item :: rest => json item :: jsonItems rest

def jsonMembers : List (String × Value) → List (String × List Char)
  | [] => []
  | (key, value) :: rest => (key, json value) :: jsonMembers rest

end

def canonical : Value → String
  | null => "\x7b\x7d"
  | value => String.ofList (json value)

end Codegen.Value
