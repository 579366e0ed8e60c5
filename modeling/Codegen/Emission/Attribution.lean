import Codegen.Text.Lines

/-!
The attribution of a file: the names of the plugins that contributed to it, in one text with a comma
and a blank in between. The names are read back by cutting that text at every comma and blank, so a
name that holds these two is read back as several.
-/
namespace Codegen.Attribution

def pieces : List Char → List (List Char)
  | [] => [[]]
  | ',' :: ' ' :: rest => [] :: pieces rest
  | c :: rest =>
    match pieces rest with
    | [] => [[c]]
    | piece :: others => (c :: piece) :: others

def names (attribution : String) : List String :=
  if attribution = "" then [] else (pieces attribution.toList).map String.ofList

def add (attribution name : String) : String :=
  if name ∈ names attribution then attribution else attribution ++ ", " ++ name

end Codegen.Attribution
