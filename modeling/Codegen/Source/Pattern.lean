import Codegen.Source.Token

/-!
Patterns of tokens with ordered choice: an alternative is tried only if those before it fail, and a
repetition takes as much as it can, so what is repeated has to take something. Patterns may refer to
rules, which a grammar gives patterns for.
-/
namespace Codegen.Source

inductive Pattern (ρ : Type) where
  | empty
  | token (t : Token)
  | name
  | seq (first second : Pattern ρ)
  | alt (first second : Pattern ρ)
  | many (p : Pattern ρ)
  | without (p : Pattern ρ)
  | rule (r : ρ)
  deriving Repr, Inhabited

namespace Pattern

variable {ρ : Type}

def keywords : List String :=
  ["False", "None", "True", "and", "as", "assert", "async", "await", "break", "class", "continue",
    "def", "del", "elif", "else", "except", "finally", "for", "from", "global", "if", "import", "in",
    "is", "lambda", "nonlocal", "not", "or", "pass", "raise", "return", "try", "while", "with", "yield"]

def word (s : String) : Pattern ρ :=
  token (.word s)

def mark (s : String) : Pattern ρ :=
  token (.mark s)

def all (ps : List (Pattern ρ)) : Pattern ρ :=
  ps.foldr seq empty

def oneOf : List (Pattern ρ) → Pattern ρ
  | [] => without empty
  | [p] => p
  | p :: ps => alt p (oneOf ps)

def optional (p : Pattern ρ) : Pattern ρ :=
  alt p empty

def repeated (p : Pattern ρ) : Pattern ρ :=
  seq p (many p)

def ahead (p : Pattern ρ) : Pattern ρ :=
  without (without p)

def separated (between p : Pattern ρ) : Pattern ρ :=
  seq p (many (seq between p))

def listed (p : Pattern ρ) : Pattern ρ :=
  seq (separated (mark ",") p) (optional (mark ","))

def rest? (grammar : ρ → Pattern ρ) : (fuel : Nat) → Pattern ρ → List Token → Option (List Token)
  | 0, _, _ => none
  | _ + 1, empty, ts => some ts
  | _ + 1, token t, ts =>
    match ts with
    | next :: rest => if next = t then some rest else none
    | [] => none
  | _ + 1, name, ts =>
    match ts with
    | .word s :: rest => if s ∈ keywords then none else some rest
    | _ => none
  | fuel + 1, seq p q, ts => (rest? grammar fuel p ts).bind (rest? grammar fuel q)
  | fuel + 1, alt p q, ts =>
    match rest? grammar fuel p ts with
    | some rest => some rest
    | none => rest? grammar fuel q ts
  | fuel + 1, many p, ts =>
    match rest? grammar fuel p ts with
    | some rest => rest? grammar fuel (many p) rest
    | none => some ts
  | fuel + 1, without p, ts => if (rest? grammar fuel p ts).isSome then none else some ts
  | fuel + 1, rule r, ts => rest? grammar fuel (grammar r) ts

end Pattern
end Codegen.Source
