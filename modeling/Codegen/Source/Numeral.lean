/-!
Numerals of a source text, read one character after another. A numeral may begin with zeros, and an
underscore stands between two of its digits only.
-/
namespace Codegen.Source

inductive Numeral where
  | zero
  | zeros
  | whole
  | point
  | fraction
  | exponent
  | signed
  | power
  | imaginary
  | radix (base : Nat)
  | based (base : Nat)
  | parted (before : Numeral)
  deriving DecidableEq, Repr

namespace Numeral

def ofDigit (c : Char) : Numeral :=
  if c = '0' then zero else whole

def baseOf? (c : Char) : Option Nat :=
  if c.toLower = 'x' then some 16
  else if c.toLower = 'o' then some 8
  else if c.toLower = 'b' then some 2
  else none

def isDigitOf (base : Nat) (c : Char) : Bool :=
  if c.isDigit then decide (c.toNat < '0'.toNat + base)
  else base = 16 && 'a' ≤ c.toLower && c.toLower ≤ 'f'

def hasDigit : Numeral → Char → Bool
  | based base, c => isDigitOf base c
  | _, c => c.isDigit

def imaginaryAt (c : Char) : Option Numeral :=
  if c.toLower = 'j' then some imaginary else none

def exponentAt (c : Char) : Option Numeral :=
  if c.toLower = 'e' then some exponent else imaginaryAt c

def pointAt (c : Char) : Option Numeral :=
  if c = '.' then some point else exponentAt c

def goesOn (n : Numeral) (c : Char) (other : Option Numeral) : Option Numeral :=
  if c = '_' then some (parted n) else if n.hasDigit c then some n else other

def afterZeros (c : Char) : Option Numeral :=
  if c ≠ '0' ∧ c.isDigit then some whole else goesOn zeros c (pointAt c)

def takes : Numeral → Char → Option Numeral
  | zero, c => ((baseOf? c).map radix).or (afterZeros c)
  | zeros, c => afterZeros c
  | whole, c => goesOn whole c (pointAt c)
  | point, c => if c.isDigit then some fraction else exponentAt c
  | fraction, c => goesOn fraction c (exponentAt c)
  | exponent, c =>
    if c = '+' ∨ c = '-' then some signed else if c.isDigit then some power else none
  | signed, c => if c.isDigit then some power else none
  | power, c => goesOn power c (imaginaryAt c)
  | imaginary, _ => none
  | radix base, c => goesOn (based base) c none
  | based base, c => goesOn (based base) c none
  | parted before, c => if before.hasDigit c then before.takes c else none

/-- A numeral that ends behind the mark of an exponent leaves that mark to a name. -/
def endsBefore : Numeral → Char → Bool
  | signed, _ => false
  | radix _, _ => false
  | parted _, _ => false
  | based _, c => !c.isDigit
  | _, _ => true

end Numeral
end Codegen.Source
