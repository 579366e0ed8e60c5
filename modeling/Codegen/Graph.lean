import Codegen.Error

/-!
Dependency graphs. Keys are put in an order in which each comes after the keys that it depends on, and
keys that are free at the same time keep the order in which they were added. Where that is not
possible a cycle is reported by the labels of its keys.
-/
namespace Codegen

structure GraphNode where
  label : String
  dependencies : List String
  deriving DecidableEq, Repr, Inhabited

structure Graph where
  nodes : Table String GraphNode := Table.empty
  deriving Inhabited

abbrev Waiting := String × List String

inductive Walk where
  | cycle (keys : List String)
  | clear (visited : List String)
  deriving DecidableEq, Repr, Inhabited

namespace Graph

def add (graph : Graph) (key label : String) (dependencies : List String) : Graph :=
  let known := ((graph.nodes.find? key).map (·.dependencies)).getD []
  { nodes := graph.nodes.put key ⟨label, Text.extend known dependencies⟩ }

def keys (graph : Graph) : List String :=
  graph.nodes.keys

def waiting (graph : Graph) : List Waiting :=
  graph.nodes.entries.map
    (fun entry => (entry.1, entry.2.dependencies.filter (· ∈ graph.keys)))

def released (waiting : List Waiting) (done : List String) (key : String) : List String :=
  (waiting.filter (fun entry => key ∈ entry.2 ∧ entry.2.all (· ∈ done))).map (·.1)

def settle (waiting : List Waiting) :
    (fuel : Nat) → (ready done : List String) → List String
  | 0, _, done => done
  | _, [], done => done
  | fuel + 1, key :: rest, done =>
    let done := done ++ [key]
    settle waiting fuel (rest ++ released waiting done key) done

def ordered (graph : Graph) : List String :=
  let free := (graph.waiting.filter (fun entry => entry.2.isEmpty)).map (·.1)
  settle graph.waiting graph.waiting.length free []

def leftover (graph : Graph) (done : List String) : List Waiting :=
  (graph.waiting.filter (fun entry => entry.1 ∉ done)).map
    (fun entry => (entry.1, entry.2.filter (· ∉ done)))

def waitsFor (waiting : List Waiting) (key : String) : List String :=
  ((waiting.find? (fun entry => entry.1 = key)).map Prod.snd).getD []

def closing (path : List String) (key : String) : List String :=
  path.reverse.dropWhile (· ≠ key) ++ [key]

def proceed (walk : String → List String → Walk) (path : List String) (found : Walk)
    (key : String) : Walk :=
  match found with
  | .cycle keys => .cycle keys
  | .clear visited =>
    if key ∈ path then .cycle (closing path key)
    else if key ∈ visited then .clear visited
    else walk key visited

/-- Walks in depth from a key along dependencies in ascending order. No path is longer than there are
keys, so that the fuel does not run out. -/
def walkFrom (waiting : List Waiting) :
    (fuel : Nat) → (path : List String) → (key : String) → (visited : List String) → Walk
  | 0, _, _, visited => .clear visited
  | fuel + 1, path, key, visited =>
    let path := key :: path
    let next := Text.sorted (waitsFor waiting key)
    match next.foldl (proceed (walkFrom waiting fuel path) path) (.clear visited) with
    | .cycle keys => .cycle keys
    | .clear visited => .clear (key :: visited)

def findCycle (waiting : List Waiting) : List String :=
  let start := walkFrom waiting (waiting.length + 1) []
  match (waiting.map (·.1)).foldl (proceed start []) (.clear []) with
  | .cycle keys => keys
  | .clear _ => []

def labelOf (graph : Graph) (key : String) : String :=
  ((graph.nodes.find? key).map (·.label)).getD key

def traverse (graph : Graph) : Except Error (List String) :=
  let done := graph.ordered
  if done.length < graph.keys.length then
    .error (.cyclic ((findCycle (graph.leftover done)).map graph.labelOf))
  else .ok done

end Graph
end Codegen
