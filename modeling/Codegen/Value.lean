import Codegen.Binary64

/-!
Values that pass through a run unread: parameters of requests, results of providers, metadata of the
model. An object keeps its members in the order in which they were given.
-/
namespace Codegen

inductive Value where
  | null
  | bool (b : Bool)
  | int (n : Int)
  | float (x : Binary64)
  | text (s : String)
  | list (items : List Value)
  | object (members : List (String × Value))
  deriving Inhabited, Repr

namespace Value

def truthy : Value → Bool
  | null => false
  | bool b => b
  | int n => n != 0
  | float x => !x.isZero
  | text s => !s.isEmpty
  | list items => !items.isEmpty
  | object members => !members.isEmpty

def member? (key : String) (members : List (String × Value)) : Option Value :=
  (members.find? (fun member => member.1 = key)).map Prod.snd

def get? : Value → String → Option Value
  | object members, key => member? key members
  | _, _ => none

def kindName : Value → String
  | null => "NoneType"
  | bool _ => "bool"
  | int _ => "int"
  | float _ => "float"
  | text _ => "str"
  | list _ => "list"
  | object _ => "dict"

mutual

/-- Equality of values: numbers by their size, whatever their kind, and objects by their members in
any order. -/
def same : Value → Value → Bool
  | null, null => true
  | text s, text t => s == t
  | float x, float y => x.same y
  | float x, bool b => x.isInteger (if b then 1 else 0)
  | float x, int n => x.isInteger n
  | bool b, float y => y.isInteger (if b then 1 else 0)
  | int n, float y => y.isInteger n
  | bool a, bool b => a == b
  | bool a, int n => (if a then 1 else 0) = n
  | int n, bool b => n = (if b then 1 else 0)
  | int m, int n => m == n
  | list xs, list ys => sameItems xs ys
  | object xs, object ys => xs.length == ys.length && sameMembers xs ys
  | _, _ => false

def sameItems : List Value → List Value → Bool
  | [], [] => true
  | x :: xs, y :: ys => same x y && sameItems xs ys
  | _, _ => false

def sameMembers : List (String × Value) → List (String × Value) → Bool
  | [], _ => true
  | (key, x) :: xs, ys =>
    (match member? key ys with
      | some y => same x y
      | none => false) && sameMembers xs ys

end

end Value
end Codegen
