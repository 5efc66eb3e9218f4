import TapeMachine.Decimal.Binary64

-- The shortest decimal text that reads back as a given floating number.
namespace TapeMachine.Decimal

structure Numeral where
  digits : Nat
  exponent : Int
  deriving DecidableEq, Repr

-- The reals that round to a positive number: the ends and the number itself as quotients with
-- one common denominator. The ends belong to it exactly when the significand is even.
structure Neighbourhood where
  low : Nat
  value : Nat
  high : Nat
  denominator : Nat
  closed : Bool

def neighbourhood (significand : Nat) (exponent : Int) : Neighbourhood :=
  let below :=
    if significand = Binary64.fullSignificand ∧ Binary64.leastExponent < exponent then 1 else 2
  let (unit,denominator) := withPower 2 exponent 1 4
  ⟨(4*significand - below)*unit,4*significand*unit,(4*significand+2)*unit,denominator,
    significand % 2 = 0⟩

def Numeral.compareWith (decimal : Numeral) (numerator denominator : Nat) : Ordering :=
  let (scaled,unit) := withPower 10 decimal.exponent decimal.digits 1
  compare (scaled*denominator) (numerator*unit)

def Neighbourhood.holds (reals : Neighbourhood) (decimal : Numeral) : Bool :=
  let low := decimal.compareWith reals.low reals.denominator
  let high := decimal.compareWith reals.high reals.denominator
  (low = .gt || reals.closed && low = .eq) && (high = .lt || reals.closed && high = .eq)

def Neighbourhood.magnitude (reals : Neighbourhood) : Int :=
  let powers := (List.range 640).map fun (n : Nat) => (n : Int) - 325
  (powers.find? fun k => (Numeral.compareWith ⟨1,k⟩ reals.value reals.denominator) = .gt).getD 315

-- Among decimals with the given exponent only the two beside the number can be nearest to it.
-- Of two that read back the nearer one is taken, and the even one of two that are as near.
def Neighbourhood.candidate? (reals : Neighbourhood) (exponent : Int) : Option Numeral :=
  let (numerator,denominator) := withPower 10 (-exponent) reals.value reals.denominator
  let below : Numeral := ⟨numerator / denominator,exponent⟩
  let above : Numeral := ⟨numerator / denominator + 1,exponent⟩
  match reals.holds below,reals.holds above with
  | true,true =>
    if roundedQuotient numerator denominator = below.digits then some below else some above
  | true,false => some below
  | false,true => some above
  | false,false => none

def mostDigits : Nat := 17

def Neighbourhood.shortest (reals : Neighbourhood) : Numeral :=
  let magnitude := reals.magnitude
  ((List.range mostDigits).findSome? fun (n : Nat) => reals.candidate? (magnitude - (n+1))).getD ⟨0,0⟩

def Numeral.significant (decimal : Numeral) : List Char × Int :=
  let written := Nat.toDigits 10 decimal.digits
  let kept := (written.reverse.dropWhile (· = '0')).reverse
  (kept,decimal.exponent + (written.length - kept.length : Nat))

def positionalFrom : Int := -4
def positionalBelow : Int := 16

def zeros (count : Int) : List Char := List.replicate count.toNat '0'

def powerText (power : Int) : List Char :=
  let digits := Nat.toDigits 10 power.natAbs
  (if power < 0 then '-' else '+') :: zeros (2 - digits.length) ++ digits

def layOut (digits : List Char) (exponent : Int) : List Char :=
  let leading := exponent + digits.length - 1
  if positionalFrom ≤ leading ∧ leading < positionalBelow then
    if 0 ≤ exponent then digits ++ zeros exponent ++ ['.','0']
    else if 0 ≤ leading then
      digits.take (leading+1).toNat ++ '.' :: digits.drop (leading+1).toNat
    else '0' :: '.' :: zeros (-leading - 1) ++ digits
  else
    let fraction := digits.drop 1
    digits.take 1 ++ (if fraction.isEmpty then [] else '.' :: fraction) ++ 'e' :: powerText leading

def Binary64.text : Binary64 → String
  | .nan => "nan"
  | .infinite negative => if negative then "-inf" else "inf"
  | .finite negative significand exponent =>
    let size :=
      if significand = 0 then ['0','.','0']
      else
        let (digits,power) := (neighbourhood significand exponent).shortest.significant
        layOut digits power
    String.ofList (if negative then '-' :: size else size)

end TapeMachine.Decimal
