import Codegen.Text.Lines

/-!
Words of an identifier, and the identifier in lower case with underscores between its words.

A word is a run of small ASCII letters, a capital with the small letters after it, or a run of ASCII
digits. Every other character only separates words.
-/
namespace Codegen.Text

def isWordChar (c : Char) : Bool :=
  c.isLower || c.isUpper || c.isDigit

/-- Says whether `d`, directly after `c`, belongs to the same word: a small letter goes on after any
letter, a digit after a digit, and a capital always starts a word. -/
def continues (c d : Char) : Bool :=
  if c.isDigit then d.isDigit else d.isLower

def words : List Char → List (List Char)
  | [] => []
  | c :: rest =>
    if isWordChar c then
      match rest.head?, words rest with
      | some d, word :: others =>
        if continues c d then (c :: word) :: others else [c] :: word :: others
      | _, others => [c] :: others
    else words rest

def snakeCase (s : String) : String :=
  join "_" ((words s.toList).map (fun word => String.ofList (word.map Char.toLower)))

end Codegen.Text
