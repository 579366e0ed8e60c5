import Codegen.Registry
import Mathlib.Data.List.Forall2
import Mathlib.Data.Option.Basic

/-! The two spellings of no parameters. Requests that differ in them only have one key and one
description, and providers that do not tell them apart give answers that differ in them only. -/
namespace Codegen

inductive Value.Respelled : Value → Value → Prop where
  | same (v : Value) : Respelled v v
  | filled : Respelled .null (.object [])
  | blanked : Respelled (.object []) .null

structure Request.Respelled (r s : Request) : Prop where
  kind : r.kind = s.kind
  params : r.params.Respelled s.params

theorem Value.respelledTrans {u v w : Value} (first : u.Respelled v) (second : v.Respelled w) :
    u.Respelled w := by
  cases first with
  | same => exact second
  | filled =>
    cases second with
    | same => exact .filled
    | blanked => exact .same .null
  | blanked =>
    cases second with
    | same => exact .blanked
    | filled => exact .same (.object [])

theorem Value.respelledSymm {v w : Value} (respelled : v.Respelled w) : w.Respelled v := by
  cases respelled with
  | same => exact .same v
  | filled => exact .blanked
  | blanked => exact .filled

theorem Value.canonicalRespelled {v w : Value} (respelled : v.Respelled w) :
    v.canonical = w.canonical := by
  have empty : (Value.object []).canonical = Value.null.canonical := by cbv
  cases respelled with
  | same => rfl
  | filled => exact empty.symm
  | blanked => exact empty

theorem Value.truthyRespelled {v w : Value} (respelled : v.Respelled w) : v.truthy = w.truthy := by
  cases respelled <;> rfl

namespace Request

variable {r s t : Request}

theorem respelledSame (r : Request) : r.Respelled r :=
  ⟨rfl, .same r.params⟩

theorem respelledTrans (first : r.Respelled s) (second : s.Respelled t) : r.Respelled t :=
  ⟨first.kind.trans second.kind, Value.respelledTrans first.params second.params⟩

theorem respelledSymm (respelled : r.Respelled s) : s.Respelled r :=
  ⟨respelled.kind.symm, Value.respelledSymm respelled.params⟩

theorem keyRespelled (respelled : r.Respelled s) : r.key = s.key := by
  rw [key, key, respelled.kind, Value.canonicalRespelled respelled.params]

theorem describeRespelled (respelled : r.Respelled s) : r.describe = s.describe := by
  rw [describe, describe, respelled.kind, Value.canonicalRespelled respelled.params,
    Value.truthyRespelled respelled.params]

end Request

inductive Paired {α β : Type} (R : α → β → Prop) : Except Error α → Except Error β → Prop where
  | ok {a b} (related : R a b) : Paired R (.ok a) (.ok b)
  | error (e : Error) : Paired R (.error e) (.error e)
  | notFound {kind v w requestedBy} (params : Value.Respelled v w) :
      Paired R (.error (.notFound kind v requestedBy)) (.error (.notFound kind w requestedBy))

namespace Paired

variable {α β γ δ : Type} {R : α → β → Prop} {S : γ → δ → Prop}

theorem same (x : Except Error α) : Paired Eq x x := by
  cases x with
  | ok _ => exact .ok rfl
  | error e => exact .error e

theorem bind {x : Except Error α} {y : Except Error β} {f : α → Except Error γ} {g : β → Except Error δ}
    (first : Paired R x y) (next : ∀ a b, R a b → Paired S (f a) (g b)) :
    Paired S (x >>= f) (y >>= g) := by
  cases first with
  | ok related => exact next _ _ related
  | error e => exact .error e
  | notFound params => exact .notFound params

theorem each {f : α → Except Error γ} {g : β → Except Error δ} {xs : List α} {ys : List β}
    (related : List.Forall₂ R xs ys) (step : ∀ a b, R a b → Paired S (f a) (g b)) :
    Paired (List.Forall₂ S) (xs.mapM f) (ys.mapM g) := by
  induction related with
  | nil => exact .ok .nil
  | cons head tail ih =>
    rw [List.mapM_cons, List.mapM_cons]
    exact bind (step _ _ head) fun _ _ first => bind ih fun _ _ rest => .ok (.cons first rest)

theorem filter {f : α → Except Error Bool} {g : β → Except Error Bool} {xs : List α} {ys : List β}
    (related : List.Forall₂ R xs ys) (same : ∀ a b, R a b → f a = g b) :
    Paired (List.Forall₂ R) (xs.filterM f) (ys.filterM g) := by
  have aux : ∀ {kept : List α} {kept' : List β}, List.Forall₂ R kept kept' →
      Paired (List.Forall₂ R) (xs.filterAuxM f kept) (ys.filterAuxM g kept') := by
    induction related with
    | nil => exact fun kept => .ok kept
    | @cons a b xs ys head tail ih =>
      intro kept kept' before
      simp only [List.filterAuxM, same a b head]
      cases g b with
      | error e => exact .error e
      | ok answer =>
        cases answer with
        | true => exact ih (.cons head before)
        | false => exact ih before
  exact bind (aux .nil) fun _ _ found => .ok (List.rel_reverse found)

end Paired

abbrev RespelledAnswers : Except Error (List Request) → Except Error (List Request) → Prop :=
  Paired (List.Forall₂ Request.Respelled)

theorem respelledEach {xs ys zs : List Request} (first : List.Forall₂ Request.Respelled xs ys)
    (second : List.Forall₂ Request.Respelled ys zs) : List.Forall₂ Request.Respelled xs zs := by
  induction first generalizing zs with
  | nil => exact second
  | cons head tail ih =>
    cases second with
    | cons next rest => exact .cons (Request.respelledTrans head next) (ih rest)

theorem answersTrans {x y z : Except Error (List Request)} (first : RespelledAnswers x y)
    (second : RespelledAnswers y z) : RespelledAnswers x z := by
  cases first with
  | ok related =>
    cases second with
    | ok next => exact .ok (respelledEach related next)
  | error e => exact second
  | notFound params =>
    cases second with
    | error e => exact .notFound params
    | notFound next => exact .notFound (Value.respelledTrans params next)

theorem answersSymm {x y : Except Error (List Request)} (answers : RespelledAnswers x y) :
    RespelledAnswers y x := by
  cases answers with
  | ok related => exact .ok (List.Forall₂.flip (related.imp fun _ _ => Request.respelledSymm))
  | error e => exact .error e
  | notFound params => exact .notFound (Value.respelledSymm params)

namespace Provider

structure Blind (p : Provider) : Prop where
  accepts : p.accepts .null = p.accepts (.object [])
  required : RespelledAnswers (p.required .null) (p.required (.object []))
  optional : RespelledAnswers (p.optional .null) (p.optional (.object []))

structure Respelled (p q : Provider) : Prop where
  name : p.name = q.name
  kind : p.kind = q.kind
  singleton : p.singleton = q.singleton
  singletonParams : p.singletonParams.Respelled q.singletonParams
  accepts : ∀ v, p.accepts v = q.accepts v
  required : ∀ v, RespelledAnswers (p.required v) (q.required v)
  optional : ∀ v, RespelledAnswers (p.optional v) (q.optional v)

structure Twin (p q : Provider) : Prop where
  blind : p.Blind
  respelled : p.Respelled q

variable {p q : Provider} {v w : Value}

theorem twinAccepts (twin : p.Twin q) (params : v.Respelled w) : p.accepts v = q.accepts w := by
  cases params with
  | same => exact twin.respelled.accepts v
  | filled => exact twin.blind.accepts.trans (twin.respelled.accepts _)
  | blanked => exact twin.blind.accepts.symm.trans (twin.respelled.accepts _)

theorem twinRequired (twin : p.Twin q) (params : v.Respelled w) :
    RespelledAnswers (p.required v) (q.required w) := by
  cases params with
  | same => exact twin.respelled.required v
  | filled => exact answersTrans twin.blind.required (twin.respelled.required _)
  | blanked => exact answersTrans (answersSymm twin.blind.required) (twin.respelled.required _)

theorem twinOptional (twin : p.Twin q) (params : v.Respelled w) :
    RespelledAnswers (p.optional v) (q.optional w) := by
  cases params with
  | same => exact twin.respelled.optional v
  | filled => exact answersTrans twin.blind.optional (twin.respelled.optional _)
  | blanked => exact answersTrans (answersSymm twin.blind.optional) (twin.respelled.optional _)

end Provider
end Codegen
