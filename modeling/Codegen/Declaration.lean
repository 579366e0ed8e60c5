import Codegen.Graph

/-!
Declarations: capabilities that providers promise before anything runs, and those that they need from
others. A capability has one owner, every need has to be declared by someone, and needs must not form
a cycle.
-/
namespace Codegen

structure Declaration where
  name : String
  capability : String
  dependsOn : List String := []
  deriving DecidableEq, Repr, Inhabited

structure Claimed where
  declaration : Declaration
  plugin : String
  deriving DecidableEq, Repr, Inhabited

namespace Declaration

def claim (owners : Table String String) (c : Claimed) : Except Error (Table String String) :=
  let capability := c.declaration.capability
  match owners.find? capability with
  | some owner =>
    if owner = c.plugin then .ok owners
    else .error (.symbolConflict capability [owner, c.plugin] none)
  | none => .ok (owners.put capability c.plugin)

def addNeeds (owners : Table String String) (graph : Graph) (c : Claimed) : Except Error Graph :=
  match c.declaration.dependsOn.find? (fun need => !owners.contains need) with
  | some need => .error (.notFound need .null c.plugin)
  | none =>
    let capability := c.declaration.capability
    .ok (graph.add capability capability c.declaration.dependsOn)

def check (claims : List Claimed) : Except Error (List Declaration) := do
  let owners ← claims.foldlM claim Table.empty
  let graph ← claims.foldlM (addNeeds owners) {}
  let _ ← graph.traverse
  .ok (claims.map (·.declaration))

end Declaration
end Codegen
