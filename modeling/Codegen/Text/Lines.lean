/-!
Cutting a text at a mark and joining the pieces again. `n` marks cut a text into `n + 1` pieces, some
of them perhaps empty, and joining the pieces with the mark gives the text back.
-/
namespace Codegen.Text

def cut (mark : Char) : List Char → List (List Char)
  | [] => [[]]
  | c :: rest =>
    if c = mark then [] :: cut mark rest
    else match cut mark rest with
      | [] => [[c]]
      | piece :: pieces => (c :: piece) :: pieces

def glue (mark : Char) : List (List Char) → List Char
  | [] => []
  | [piece] => piece
  | piece :: pieces => piece ++ mark :: glue mark pieces

theorem cutNonempty (mark : Char) (cs : List Char) : cut mark cs ≠ [] := by
  cases cs with
  | nil => simp [cut]
  | cons c rest =>
    unfold cut
    split
    · simp
    · split <;> simp

theorem glueCut (mark : Char) (cs : List Char) : glue mark (cut mark cs) = cs := by
  induction cs with
  | nil => rfl
  | cons c rest ih =>
    have some := cutNonempty mark rest
    unfold cut
    split
    · rename_i same
      subst same
      cases h : cut c rest with
      | nil => exact absurd h some
      | cons piece pieces => rw [h] at ih; simp [glue, ih]
    · cases h : cut mark rest with
      | nil => exact absurd h some
      | cons piece pieces =>
        rw [h] at ih
        cases pieces with
        | nil => simpa [glue] using ih
        | cons next others => simpa [glue] using ih

def split (mark : Char) (s : String) : List String :=
  (cut mark s.toList).map String.ofList

def lines (s : String) : List String :=
  split '\n' s

def join (between : String) (parts : List String) : String :=
  String.intercalate between parts

def dropLeading (mark : Char) (s : String) : String :=
  String.ofList (s.toList.dropWhile (· = mark))

def dropTrailing (mark : Char) (s : String) : String :=
  String.ofList ((s.toList.reverse.dropWhile (· = mark)).reverse)

def strip (mark : Char) (s : String) : String :=
  dropTrailing mark (dropLeading mark s)

def startsWith (s start : String) : Bool :=
  start.toList.isPrefixOf s.toList

def endsWith (s ending : String) : Bool :=
  ending.toList.isSuffixOf s.toList

def precedes (a b : String) : Bool :=
  decide (a ≤ b)

def sorted (texts : List String) : List String :=
  texts.mergeSort precedes

def extend (texts more : List String) : List String :=
  more.foldl (fun seen s => if s ∈ seen then seen else seen ++ [s]) texts

def unique (texts : List String) : List String :=
  extend [] texts

end Codegen.Text
