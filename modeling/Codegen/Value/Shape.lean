import Codegen.Request
import Codegen.Table

/-!
Reading values of an expected shape: members of an object, and sequences, which are the items of a
list, the characters of a text, or the keys of an object.
-/
namespace Codegen.Value

def need (key : String) : Value → Except ShapeError Value
  | object members =>
    match member? key members with
    | some value => .ok value
    | none => .error (.missingKey key)
  | _ => .error .wrongKind

def getOr (value : Value) (key : String) (fallback : Value) : Value :=
  (value.get? key).getD fallback

def sequence : Value → Except ShapeError (List Value)
  | list items => .ok items
  | text s => .ok (s.toList.map (fun c => text (String.singleton c)))
  | object members => .ok (members.map (fun m => text m.1))
  | _ => .error .wrongKind

def arguments (known required : List String) : Value → Except ShapeError (List (String × Value))
  | object members =>
    if (members.all (fun m => m.1 ∈ known)) ∧ required.all (fun key => (member? key members).isSome)
    then .ok members else .error .wrongKind
  | _ => .error .wrongKind

def entryKey : Value → Except ShapeError String
  | text s => .ok s
  | list _ => .error .wrongKind
  | object _ => .error .wrongKind
  | value => .ok (String.ofList value.json)

def entry (value : Value) : Except ShapeError (String × Value) := do
  match ← value.sequence with
  | [key, item] => .ok (← entryKey key, item)
  | _ => .error .wrongCount

def entries : Value → Except ShapeError (List (String × Value))
  | object members => .ok members
  | value => do .ok (Table.ofList (← (← value.sequence).mapM entry)).entries

end Codegen.Value
