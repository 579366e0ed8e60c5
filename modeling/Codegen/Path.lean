import Codegen.Text.Lines

/-!
Output paths. Files are kept under normalized path texts: slashes only, and no `./` in front. A path
denotes a file through its names, where empty names and single dots do not count; two names of a
module that lie in one output tree are related by a relative module path, which climbs with dots and
then descends by names.
-/
namespace Codegen

structure Path where
  root : String := ""
  names : List String := []
  deriving DecidableEq, Repr, Inhabited

namespace Path

def dropDots : List Char → List Char
  | '.' :: '/' :: rest => dropDots rest
  | cs => cs

def slashed (c : Char) : Char :=
  if c = '\\' then '/' else c

def normalize (s : String) : String :=
  String.ofList (dropDots (s.toList.map slashed))

def rootOf : Nat → String
  | 0 => ""
  | 2 => "//"
  | _ => "/"

def counts (name : String) : Bool :=
  name ≠ "" ∧ name ≠ "."

def parse (s : String) : Path :=
  { root := rootOf (s.toList.takeWhile (· = '/')).length
    names := (Text.split '/' s).filter counts }

def parts (p : Path) : List String :=
  if p.root = "" then p.names else p.root :: p.names

def parent (p : Path) : Path :=
  { p with names := p.names.dropLast }

def name (p : Path) : String :=
  p.names.getLast?.getD ""

def partName (name : String) : String × String :=
  let cs := name.toList
  let ending := (cs.reverse.takeWhile (· ≠ '.')).length
  let before := cs.length - ending - 1
  if ending < cs.length ∧ 0 < before ∧ 0 < ending then
    (String.ofList (cs.take before), String.ofList (cs.drop before))
  else (name, "")

def stem (p : Path) : String :=
  (partName p.name).1

def suffix (p : Path) : String :=
  (partName p.name).2

def join (p q : Path) : Path :=
  if q.root = "" then { p with names := p.names ++ q.names } else q

def text (p : Path) : String :=
  if p.root = "" ∧ p.names = [] then "." else p.root ++ Text.join "/" p.names

def apart : List String → List String → List String × List String
  | x :: xs, y :: ys => if x = y then apart xs ys else (x :: xs, y :: ys)
  | xs, ys => (xs, ys)

def moduleFrom (file target : String) : String :=
  let source := parse (normalize file)
  let goal := parse (normalize target)
  let (climbed, descended) := apart source.parent.parts goal.parent.parts
  let last := if goal.stem = "__init__" then [] else [goal.stem]
  String.ofList (List.replicate (climbed.length + 1) '.') ++ Text.join "." (descended ++ last)

end Path
end Codegen
