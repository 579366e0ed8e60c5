import Codegen.Value

/-!
Source trees: the expressions, statements and modules that a provider may hand over in place of
source text. Only the shapes that generated declarations need are there.
-/
namespace Codegen.Source

inductive Expr where
  | name (id : String)
  | constant (value : Value)
  | member (owner : Expr) (name : String)
  | subscript (owner index : Expr)
  | call (callee : Expr) (args : List Expr)
  | list (items : List Expr)
  deriving Inhabited, Repr

structure Alias where
  name : String
  bound : Option String := none
  deriving DecidableEq, Repr, Inhabited

structure Param where
  name : String
  annotation : Option Expr := none
  deriving Inhabited, Repr

inductive Stmt where
  | pass
  | giveBack (value : Option Expr)
  | expr (value : Expr)
  | assign (targets : List Expr) (value : Expr)
  | annotated (target annotation : Expr) (value : Option Expr)
  | importModules (names : List Alias)
  | importFrom (level : Nat) (source : Option String) (names : List Alias)
  | branch (test : Expr) (body orelse : List Stmt)
  | classDef (decorators : List Expr) (name : String) (bases : List Expr) (body : List Stmt)
  | functionDef (suspends : Bool) (decorators : List Expr) (name : String) (params : List Param)
      (result : Option Expr) (body : List Stmt)
  deriving Inhabited, Repr

inductive Node where
  | stmt (s : Stmt)
  | expr (e : Expr)
  | program (body : List Stmt)
  deriving Inhabited, Repr

end Codegen.Source
