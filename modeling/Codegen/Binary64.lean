/-!
Numbers in the binary64 format, given by their 64 bits. A finite magnitude is `significand · 2 ^ scale`;
the reals that round to it form the interval between the midpoints to its two neighbours, and the
ends belong to it exactly if the significand is even. Below a power of two the neighbour is nearer.
-/
namespace Codegen

structure Binary64 where
  bits : UInt64
  deriving DecidableEq, Repr, Inhabited

namespace Binary64

def twoTo (n : Nat) : Nat :=
  Nat.pow 2 n

def negative (x : Binary64) : Bool :=
  x.bits.toNat / twoTo 63 % 2 = 1

def exponentField (x : Binary64) : Nat :=
  x.bits.toNat / twoTo 52 % twoTo 11

def fraction (x : Binary64) : Nat :=
  x.bits.toNat % twoTo 52

def significand (x : Binary64) : Nat :=
  if x.exponentField = 0 then x.fraction else twoTo 52 + x.fraction

def scale (x : Binary64) : Int :=
  if x.exponentField = 0 then -1074 else (x.exponentField : Int) - 1075

def isZero (x : Binary64) : Bool :=
  x.exponentField = 0 ∧ x.fraction = 0

def isFinite (x : Binary64) : Bool :=
  x.exponentField + 1 < twoTo 11

def isNaN (x : Binary64) : Bool :=
  !x.isFinite && x.fraction ≠ 0

structure Interval where
  value : Nat
  low : Nat
  high : Nat
  unit : Nat
  closed : Bool
  deriving DecidableEq, Repr

def interval (x : Binary64) : Interval :=
  let up := twoTo x.scale.toNat
  let below := if x.fraction = 0 ∧ 1 < x.exponentField then 1 else 2
  { value := 4 * x.significand * up
    low := (4 * x.significand - below) * up
    high := (4 * x.significand + 2) * up
    unit := 4 * twoTo (-x.scale).toNat
    closed := x.significand % 2 = 0 }

def isInteger (x : Binary64) (n : Int) : Bool :=
  let magnitude := x.significand * twoTo x.scale.toNat
  x.isFinite &&
    (if x.negative then -(magnitude : Int) else magnitude) = n * (twoTo (-x.scale).toNat : Nat)

def same (x y : Binary64) : Bool :=
  !x.isNaN && (x = y || x.isZero && y.isZero)

end Binary64
end Codegen
