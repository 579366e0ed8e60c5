import Codegen.Value.CanonicalJson

/-!
Requests for a resource. The key of a request joins its kind to the canonical text of its parameters;
requests with one key are one request.
-/
namespace Codegen

structure Request where
  kind : String
  params : Value := .null
  deriving Inhabited, Repr

def Request.key (request : Request) : String :=
  request.kind ++ "::" ++ request.params.canonical

def Request.describe (request : Request) : String :=
  if request.params.truthy then request.kind ++ "(" ++ request.params.canonical ++ ")"
  else request.kind

inductive ShapeError where
  | missingKey (key : String)
  | wrongKind
  | noMember
  | wrongCount
  | unknownChoice
  deriving DecidableEq, Repr, Inhabited

inductive RequestForm where
  | bare (kind : String)
  | pair (items : List Value)
  | whole (request : Request)
  | other (value : Value)
  deriving Inhabited, Repr

def RequestForm.request : RequestForm → Except ShapeError Request
  | .bare kind => .ok ⟨kind, .null⟩
  | .pair [.text kind, params] => .ok ⟨kind, params⟩
  | .pair [_, _] => .error .wrongKind
  | .pair _ => .error .wrongCount
  | .whole request => .ok request
  | .other _ => .error .wrongKind

end Codegen
