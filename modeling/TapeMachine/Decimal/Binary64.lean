-- Floating numbers of 64 bits, by their exact values.
namespace TapeMachine.Decimal

-- A finite number is its significand times two to its exponent, with a sign of its own so
-- that there are two zeros.
inductive Binary64 where
  | finite (negative : Bool) (significand : Nat) (exponent : Int)
  | infinite (negative : Bool)
  | nan
  deriving DecidableEq, Repr

def roundedQuotient (numerator denominator : Nat) : Nat :=
  let floor := numerator / denominator
  let twice := 2*(numerator % denominator)
  if denominator < twice ∨ twice = denominator ∧ floor % 2 = 1 then floor+1 else floor

def withPower (base : Nat) (exponent : Int) (numerator denominator : Nat) : Nat × Nat :=
  (numerator * base.pow exponent.toNat,denominator * base.pow (-exponent).toNat)

namespace Binary64

def leastExponent : Int := -1074
def greatestExponent : Int := 971

def fullSignificand : Nat := Nat.pow 2 52

def exponentFor (numerator denominator : Nat) : Int :=
  let guess : Int := numerator.log2 - denominator.log2 - 52
  let (scaled,unit) := withPower 2 (-guess) numerator denominator
  max leastExponent (if scaled < fullSignificand*unit then guess-1 else guess)

def nearest (negative : Bool) (numerator denominator : Nat) : Binary64 :=
  if numerator = 0 then finite negative 0 leastExponent
  else
    let exponent := exponentFor numerator denominator
    let (scaled,unit) := withPower 2 (-exponent) numerator denominator
    let rounded := roundedQuotient scaled unit
    let (significand,exponent) :=
      if rounded = 2*fullSignificand then (fullSignificand,exponent+1) else (rounded,exponent)
    if greatestExponent < exponent then infinite negative else finite negative significand exponent

-- Powers of ten beyond these reach no finite number, or none but zero, whatever digits of an
-- ordinary numeral they multiply.
def greatestPower : Int := 400
def leastPower : Int := -5000

def ofDecimal (negative : Bool) (digits : Nat) (exponent : Int) : Binary64 :=
  let (numerator,denominator) :=
    withPower 10 (min greatestPower (max (leastPower - digits.log2) exponent)) digits 1
  nearest negative numerator denominator

def quotient (significand : Nat) (exponent : Int) : Nat × Nat := withPower 2 exponent significand 1

def add : Binary64 → Binary64 → Binary64
  | finite _ m q,finite _ n r =>
    let (a,b) := quotient m q
    let (c,d) := quotient n r
    nearest false (a*d + c*b) (b*d)
  | nan,_ => nan
  | _,nan => nan
  | _,_ => infinite false

def scale (factor : Nat) : Binary64 → Binary64
  | finite negative m q =>
    let (a,b) := quotient m q
    match nearest false factor 1 with
    | finite _ n r =>
      let (c,d) := quotient n r
      nearest negative (a*c) (b*d)
    | other => other
  | other => other

def negate : Binary64 → Binary64
  | finite negative m q => finite (!negative) m q
  | infinite negative => infinite (!negative)
  | nan => nan

end Binary64

end TapeMachine.Decimal
