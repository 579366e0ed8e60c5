import Codegen.Table
import Codegen.Text.Quoted
import Codegen.Value

/-!
Reading JSON texts. The members of an object keep the order of the text, and a key that comes again
replaces the value in its place. Numbers without a fraction and an exponent are integers of any size,
others are rounded to binary64.
-/
namespace Codegen.Value

def isJsonBlank (c : Char) : Bool :=
  c = ' ' || c = '\n' || c = '\t' || c = '\r'

def skipJsonBlanks (cs : List Char) : List Char :=
  cs.dropWhile isJsonBlank

def unitOf? (a b c d : Char) : Option Nat := do
  some ((((← Text.hexDigitOf? a) * 16 + (← Text.hexDigitOf? b)) * 16 + (← Text.hexDigitOf? c)) * 16
    + (← Text.hexDigitOf? d))

def joinUnits (high : Option Nat) (unit : Nat) : Char :=
  match high with
  | some high => Char.ofNat (0x10000 + (high - 0xd800) * 0x400 + (unit - 0xdc00))
  | none => Char.ofNat unit

def shortEscape? (c : Char) : Option Char :=
  match c with
  | 'n' => some '\n'
  | 't' => some '\t'
  | 'r' => some '\r'
  | 'b' => some '\x08'
  | 'f' => some '\x0c'
  | '"' => some '"'
  | '\\' => some '\\'
  | '/' => some '/'
  | _ => none

def readString (high : Option Nat) (found : List Char) :
    List Char → Option (String × List Char)
  | '"' :: rest => some (String.ofList found.reverse, rest)
  | '\\' :: 'u' :: a :: b :: c :: d :: rest =>
    match unitOf? a b c d with
    | none => none
    | some unit =>
      if 0xd800 ≤ unit ∧ unit < 0xdc00 then readString (some unit) found rest
      else readString none (joinUnits high unit :: found) rest
  | '\\' :: c :: rest =>
    match shortEscape? c with
    | none => none
    | some c => readString none (c :: found) rest
  | c :: rest => readString none (c :: found) rest
  | [] => none

def naturalOf (digits : List Char) : Nat :=
  digits.foldl (fun n c => 10 * n + (c.toNat - 48)) 0

def isNumberChar (c : Char) : Bool :=
  c.isDigit || c = '-' || c = '+' || c = '.' || c = 'e' || c = 'E'

def isExponentMark (c : Char) : Bool :=
  c = 'e' || c = 'E'

def exponentOf : List Char → Int
  | '-' :: digits => -(naturalOf digits : Int)
  | '+' :: digits => naturalOf digits
  | digits => naturalOf digits

def roundedDecimal (coefficient : Nat) (exponent : Int) : Float :=
  Float.ofScientific coefficient (decide (exponent < 0)) exponent.natAbs

def magnitudeOf (negative : Bool) (cs : List Char) : Value :=
  if cs.all Char.isDigit then
    int (if negative then -(naturalOf cs : Int) else naturalOf cs)
  else
    let mantissa := cs.takeWhile (fun c => !isExponentMark c)
    let exponent := exponentOf ((cs.dropWhile (fun c => !isExponentMark c)).drop 1)
    let whole := mantissa.takeWhile (· ≠ '.')
    let fraction := (mantissa.dropWhile (· ≠ '.')).drop 1
    let x := roundedDecimal (naturalOf (whole ++ fraction)) (exponent - fraction.length)
    float ⟨(if negative then -x else x).toBits⟩

def numberOf? : List Char → Option Value
  | [] => none
  | ['-'] => none
  | '-' :: rest => some (magnitudeOf true rest)
  | cs => some (magnitudeOf false cs)

mutual

def readJson : (fuel : Nat) → List Char → Option (Value × List Char)
  | 0, _ => none
  | fuel + 1, cs =>
    match skipJsonBlanks cs with
    | '\x7b' :: rest =>
      match skipJsonBlanks rest with
      | '\x7d' :: rest => some (object [], rest)
      | rest => readMembers fuel Table.empty rest
    | '[' :: rest =>
      match skipJsonBlanks rest with
      | ']' :: rest => some (list [], rest)
      | rest => readItems fuel [] rest
    | '"' :: rest => (readString none [] rest).map (fun r => (text r.1, r.2))
    | 't' :: 'r' :: 'u' :: 'e' :: rest => some (bool true, rest)
    | 'f' :: 'a' :: 'l' :: 's' :: 'e' :: rest => some (bool false, rest)
    | 'n' :: 'u' :: 'l' :: 'l' :: rest => some (null, rest)
    | rest =>
      (numberOf? (rest.takeWhile isNumberChar)).map (fun v => (v, rest.dropWhile isNumberChar))

def readItems : (fuel : Nat) → List Value → List Char → Option (Value × List Char)
  | 0, _, _ => none
  | fuel + 1, found, cs =>
    match readJson fuel cs with
    | none => none
    | some (item, rest) =>
      match skipJsonBlanks rest with
      | ',' :: rest => readItems fuel (item :: found) rest
      | ']' :: rest => some (list (item :: found).reverse, rest)
      | _ => none

def readMembers : (fuel : Nat) → Table String Value → List Char → Option (Value × List Char)
  | 0, _, _ => none
  | fuel + 1, found, cs =>
    match skipJsonBlanks cs with
    | '"' :: rest =>
      match readString none [] rest with
      | none => none
      | some (key, rest) =>
        match skipJsonBlanks rest with
        | ':' :: rest =>
          match readJson fuel rest with
          | none => none
          | some (value, rest) =>
            let found := found.put key value
            match skipJsonBlanks rest with
            | ',' :: rest => readMembers fuel found rest
            | '\x7d' :: rest => some (object found.entries, rest)
            | _ => none
        | _ => none
    | _ => none

end

def ofJson? (s : String) : Option Value :=
  let cs := s.toList
  match readJson (2 * cs.length + 2) cs with
  | some (value, rest) => if (skipJsonBlanks rest).isEmpty then some value else none
  | none => none

end Codegen.Value
