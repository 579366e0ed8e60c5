import Codegen.Source.Tree

/-!
Source trees from values. A node is an object whose member `node` names its kind; a kind that is none
of a statement is read as an expression, and whatever else as a constant. Objects are nested no deeper
than the value is, which bounds the fuel.
-/
namespace Codegen

mutual

def Value.depth : Value → Nat
  | .list items => Value.depthOfItems items + 1
  | .object members => Value.depthOfMembers members + 1
  | _ => 1

def Value.depthOfItems : List Value → Nat
  | [] => 0
  | item :: rest => max item.depth (Value.depthOfItems rest)

def Value.depthOfMembers : List (String × Value) → Nat
  | [] => 0
  | (_, item) :: rest => max item.depth (Value.depthOfMembers rest)

end

namespace Source.Reader

def member (node : Value) (key : String) : Value :=
  (node.get? key).getD .null

def textAt (node : Value) (key : String) : String :=
  match member node key with
  | .text s => s
  | _ => ""

def items (node : Value) (key : String) : List Value :=
  match member node key with
  | .list vs => vs
  | _ => []

def unlessNull {α : Type} (read : Value → α) : Value → Option α
  | .null => none
  | v => some (read v)

def expr : (fuel : Nat) → Value → Expr
  | 0, v => .constant v
  | fuel + 1, v =>
    match textAt v "node" with
    | "Name" => .name (textAt v "id")
    | "Attribute" => .member (expr fuel (member v "value")) (textAt v "attr")
    | "Subscript" => .subscript (expr fuel (member v "value")) (expr fuel (member v "slice"))
    | "Call" => .call (expr fuel (member v "func")) ((items v "args").map (expr fuel))
    | "List" => .list ((items v "elts").map (expr fuel))
    | _ => .constant (member v "value")

def importedName : Value → Alias
  | .list [.text name, .text bound] => ⟨name, some bound⟩
  | .list (.text name :: _) => ⟨name, none⟩
  | _ => ⟨"", none⟩

def param (fuel : Nat) : Value → Param
  | .list [.text name, annotation] => ⟨name, unlessNull (expr fuel) annotation⟩
  | .list (.text name :: _) => ⟨name, none⟩
  | _ => ⟨"", none⟩

def level (v : Value) : Nat :=
  match member v "level" with
  | .int n => n.toNat
  | _ => 0

def moduleName (v : Value) : Option String :=
  match member v "module" with
  | .text s => some s
  | _ => none

def stmt : (fuel : Nat) → Value → Stmt
  | 0, v => .expr (.constant v)
  | fuel + 1, v =>
    let part := fun key => expr fuel (member v key)
    let parts := fun key => (items v key).map (expr fuel)
    let optional := fun key => unlessNull (expr fuel) (member v key)
    let body := fun key => (items v key).map (stmt fuel)
    let aliases := (items v "names").map importedName
    let function := fun suspends =>
      Stmt.functionDef suspends (parts "decorator_list") (textAt v "name")
        ((items v "args").map (param fuel)) (optional "returns") (body "body")
    match textAt v "node" with
    | "Pass" => .pass
    | "Return" => .giveBack (optional "value")
    | "Expr" => .expr (part "value")
    | "Assign" => .assign (parts "targets") (part "value")
    | "AnnAssign" => .annotated (part "target") (part "annotation") (optional "value")
    | "Import" => .importModules aliases
    | "ImportFrom" => .importFrom (level v) (moduleName v) aliases
    | "If" => .branch (part "test") (body "body") (body "orelse")
    | "ClassDef" => .classDef (parts "decorator_list") (textAt v "name") (parts "bases") (body "body")
    | "FunctionDef" => function false
    | "AsyncFunctionDef" => function true
    | _ => .expr (expr (fuel + 1) v)

def exprKinds : List String :=
  ["Name", "Constant", "Attribute", "Subscript", "Call", "List"]

end Source.Reader

def Source.Node.ofValue (v : Value) : Source.Node :=
  let fuel := v.depth
  let kind := Source.Reader.textAt v "node"
  if kind = "Module" then .program ((Source.Reader.items v "body").map (Source.Reader.stmt fuel))
  else if kind ∈ Source.Reader.exprKinds then .expr (Source.Reader.expr fuel v)
  else .stmt (Source.Reader.stmt fuel v)

end Codegen
