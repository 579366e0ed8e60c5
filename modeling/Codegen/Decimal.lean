import Codegen.Binary64

/-!
The shortest decimal that reads back as a given binary64 number, and its text.

Among the decimals with the fewest significant digits that round to the number, the nearest is taken;
an exact tie goes to the even last digit. The text is positional for decimal exponents from -4 to 15
and always shows a fraction there; other numbers carry an exponent of at least two digits.
-/
namespace Codegen

structure Decimal where
  coefficient : Nat
  exponent : Int
  deriving DecidableEq, Repr

namespace Decimal

def leadingExponent (num den : Nat) : Int :=
  if den ≤ num then (Nat.toDigits 10 (num / den)).length - 1
  else -((Nat.toDigits 10 ((den + num - 1) / num - 1)).length : Int)

def onGrid (range : Binary64.Interval) (exponent : Int) : Option Nat :=
  let up := Nat.pow 10 (-exponent).toNat
  let step := range.unit * Nat.pow 10 exponent.toNat
  let inside (n : Nat) : Bool :=
    if range.closed then range.low * up ≤ n * step ∧ n * step ≤ range.high * up
    else range.low * up < n * step ∧ n * step < range.high * up
  let below := range.value * up / step
  match inside below, inside (below + 1) with
  | false, false => none
  | true, false => some below
  | false, true => some (below + 1)
  | true, true =>
    let left := range.value * up - below * step
    let right := (below + 1) * step - range.value * up
    if left < right ∨ (left = right ∧ below % 2 = 0) then some below else some (below + 1)

/-- The shortest decimal in the interval; seventeen digits always suffice. -/
def shortest (range : Binary64.Interval) : Decimal :=
  let lead := leadingExponent range.value range.unit
  let found := (List.range 17).findSome? fun (n : Nat) =>
    (onGrid range (lead - n)).map fun coefficient => ⟨coefficient, lead - n⟩
  found.getD ⟨0, 0⟩

def digits (d : Decimal) : List Char × Int :=
  let all := Nat.toDigits 10 d.coefficient
  ((all.reverse.dropWhile (· = '0')).reverse, all.length + d.exponent)

def layout (significant : List Char) (point : Int) : List Char :=
  let count : Int := significant.length
  if -4 < point ∧ point ≤ 16 then
    if point ≤ 0 then '0' :: '.' :: List.replicate (-point).toNat '0' ++ significant
    else if count ≤ point then
      significant ++ List.replicate (point - count).toNat '0' ++ ['.', '0']
    else significant.take point.toNat ++ '.' :: significant.drop point.toNat
  else
    let exponent := point - 1
    let size := Nat.toDigits 10 exponent.natAbs
    let mantissa := match significant with
      | first :: next :: rest => first :: '.' :: next :: rest
      | short => short
    mantissa ++ 'e' :: (if exponent < 0 then '-' else '+') ::
      (if size.length < 2 then '0' :: size else size)

end Decimal

def Binary64.magnitude (x : Binary64) : List Char :=
  if x.isZero then ['0', '.', '0']
  else
    let (significant, point) := (Decimal.shortest x.interval).digits
    Decimal.layout significant point

def Binary64.textWith (infinity nan : String) (x : Binary64) : String :=
  if x.isNaN then nan
  else
    let magnitude := if x.isFinite then x.magnitude else infinity.toList
    String.ofList (if x.negative then '-' :: magnitude else magnitude)

def Binary64.text (x : Binary64) : String :=
  x.textWith "Infinity" "NaN"

end Codegen
