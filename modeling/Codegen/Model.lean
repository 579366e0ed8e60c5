import Codegen.Value.Shape

/-!
The semantic model of a relational schema: entities with their fields and relations, enumerations and
routines. Every provider is handed the model of its run. Names and other details are values as they
were given; only the shape of the model is checked when it is read.
-/
namespace Codegen

structure Field where
  name : Value
  typeName : Value
  nullable : Value := .bool false
  hasDefault : Value := .bool false
  isPrimaryKey : Value := .bool false
  deriving Inhabited, Repr

structure Relation where
  name : Value
  target : Value
  columns : List Value := []
  targetColumns : List Value := []
  isMany : Value := .bool false
  deriving Inhabited, Repr

structure Entity where
  name : Value
  schema : Value := .text "public"
  kind : Value := .text "table"
  fields : List Field := []
  relations : List Relation := []
  deriving Inhabited, Repr

structure Enumeration where
  name : Value
  values : List Value := []
  schema : Value := .text "public"
  deriving Inhabited, Repr

structure Routine where
  name : Value
  returnType : Value
  argTypes : List Value := []
  volatility : Value := .text "volatile"
  schema : Value := .text "public"
  deriving Inhabited, Repr

structure Model where
  entities : List Entity := []
  enumerations : List Enumeration := []
  routines : List Routine := []
  metadata : List (String × Value) := []
  deriving Inhabited, Repr

namespace Field

def keys : List String :=
  ["name", "type_name", "nullable", "has_default", "is_primary_key"]

def read (value : Value) : Except ShapeError Field := do
  let members := Value.object (← value.arguments keys ["name", "type_name"])
  .ok
    { name := ← members.need "name"
      typeName := ← members.need "type_name"
      nullable := members.getOr "nullable" (.bool false)
      hasDefault := members.getOr "has_default" (.bool false)
      isPrimaryKey := members.getOr "is_primary_key" (.bool false) }

def value (f : Field) : Value :=
  .object [("name", f.name), ("type_name", f.typeName), ("nullable", f.nullable),
    ("has_default", f.hasDefault), ("is_primary_key", f.isPrimaryKey)]

end Field

def Value.itemsAt (key : String) (value : Value) : Except ShapeError (List Value) :=
  (value.getOr key (.list [])).sequence

namespace Relation

def read (value : Value) : Except ShapeError Relation := do
  .ok
    { name := ← value.need "name"
      target := ← value.need "target"
      columns := ← value.itemsAt "columns"
      targetColumns := ← value.itemsAt "target_columns"
      isMany := value.getOr "is_many" (.bool false) }

def value (r : Relation) : Value :=
  .object [("name", r.name), ("target", r.target), ("columns", .list r.columns),
    ("target_columns", .list r.targetColumns), ("is_many", r.isMany)]

end Relation

namespace Entity

def read (value : Value) : Except ShapeError Entity := do
  .ok
    { name := ← value.need "name"
      schema := value.getOr "schema" (.text "public")
      kind := value.getOr "kind" (.text "table")
      fields := ← (← value.itemsAt "fields").mapM Field.read
      relations := ← (← value.itemsAt "relations").mapM Relation.read }

def value (e : Entity) : Value :=
  .object [("name", e.name), ("schema", e.schema), ("kind", e.kind),
    ("fields", .list (e.fields.map Field.value)),
    ("relations", .list (e.relations.map Relation.value))]

def primaryKey (e : Entity) : List Field :=
  e.fields.filter (·.isPrimaryKey.truthy)

def field? (e : Entity) (name : Value) : Option Field :=
  e.fields.find? (·.name.same name)

end Entity

namespace Enumeration

def read (value : Value) : Except ShapeError Enumeration := do
  .ok
    { name := ← value.need "name"
      values := ← value.itemsAt "values"
      schema := value.getOr "schema" (.text "public") }

def value (e : Enumeration) : Value :=
  .object [("name", e.name), ("values", .list e.values), ("schema", e.schema)]

end Enumeration

namespace Routine

def read (value : Value) : Except ShapeError Routine := do
  .ok
    { name := ← value.need "name"
      returnType := ← value.need "return_type"
      argTypes := ← value.itemsAt "arg_types"
      volatility := value.getOr "volatility" (.text "volatile")
      schema := value.getOr "schema" (.text "public") }

def value (r : Routine) : Value :=
  .object [("name", r.name), ("return_type", r.returnType), ("arg_types", .list r.argTypes),
    ("volatility", r.volatility), ("schema", r.schema)]

end Routine

namespace Model

def read (value : Value) : Except ShapeError Model := do
  match value with
  | .object _ =>
    .ok
      { entities := ← (← value.itemsAt "entities").mapM Entity.read
        enumerations := ← (← value.itemsAt "enums").mapM Enumeration.read
        routines := ← (← value.itemsAt "functions").mapM Routine.read
        metadata := ← (value.getOr "metadata" (.object [])).entries }
  | _ => .error .noMember

def value (m : Model) : Value :=
  .object [("entities", .list (m.entities.map Entity.value)),
    ("enums", .list (m.enumerations.map Enumeration.value)),
    ("functions", .list (m.routines.map Routine.value)),
    ("metadata", .object m.metadata)]

def entity? (m : Model) (name : Value) : Option Entity :=
  m.entities.find? (·.name.same name)

def enumeration? (m : Model) (name : Value) : Option Enumeration :=
  m.enumerations.find? (·.name.same name)

def tables (m : Model) : List Entity :=
  m.entities.filter (·.kind.same (.text "table"))

def source (m : Model) : Value :=
  (Value.member? "source" m.metadata).getD .null

end Model
end Codegen
