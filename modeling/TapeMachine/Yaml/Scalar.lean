import TapeMachine.Yaml.Value
import TapeMachine.Yaml.Fault
import TapeMachine.Text.Parts

-- What a plain scalar means: by its form it is a truth value, a number, a timestamp, nothing,
-- or else the text that it is.
namespace TapeMachine.Yaml

inductive Meaning where
  | value (value : Value)
  | mergeKey
  | defaultKey
  deriving Repr

namespace Scalar

def isDigit (c : Char) : Bool := '0' ≤ c && c ≤ '9'

def digitValue (c : Char) : Nat :=
  if isDigit c then c.toNat - 48
  else if 'a' ≤ c ∧ c ≤ 'f' then c.toNat - 87
  else c.toNat - 55

def isHexDigit (c : Char) : Bool := isDigit c || 'a' ≤ c && c ≤ 'f' || 'A' ≤ c && c ≤ 'F'

def orUnderscore (accept : Char → Bool) (c : Char) : Bool := accept c || c = '_'

def plainDigits (text : List Char) : List Char := text.filter (· ≠ '_')

def numeral (base : Nat) (text : List Char) : Nat :=
  Text.valueOf base ((plainDigits text).map digitValue)

def signed (negative : Bool) (n : Nat) : Int := if negative then -(n : Int) else n

def splitSign : List Char → Bool × List Char
  | '-' :: rest => (true,rest)
  | '+' :: rest => (false,rest)
  | rest => (false,rest)

def binaryNumeral (base : Nat) (text : List Char) : Except Fault Nat :=
  if (plainDigits text).isEmpty then .error (.noDigits base) else .ok (numeral base text)

def decimalNumeral (text : List Char) : Except Fault Nat :=
  let digits := (plainDigits text).length
  if Text.longestNumeral < digits then .error (.longNumeral digits) else .ok (numeral 10 text)

def isSixtieth : List Char → Bool
  | [c] => isDigit c
  | [c,d] => isDigit c && c < '6' && isDigit d
  | _ => false

def startsNumber (text : List Char) : Bool := (text.head?.map isDigit).getD false

def natural? (text : List Char) : Option (Except Fault Nat) :=
  match text with
  | '0' :: 'b' :: digits =>
    if !digits.isEmpty && digits.all (orUnderscore fun c => c = '0' || c = '1') then
      some (binaryNumeral 2 digits)
    else none
  | '0' :: 'x' :: digits =>
    if !digits.isEmpty && digits.all (orUnderscore isHexDigit) then some (binaryNumeral 16 digits)
    else none
  | '0' :: digits =>
    if digits.all (orUnderscore fun c => '0' ≤ c && c ≤ '7') then some (.ok (numeral 8 digits))
    else none
  | _ =>
    match Text.partsAt ':' text with
    | whole :: sixtieths =>
      if startsNumber whole && whole.all (orUnderscore isDigit) && sixtieths.all isSixtieth then
        some do
          let whole ← decimalNumeral whole
          return sixtieths.foldl (fun value part => 60*value + numeral 10 part) whole
      else none
    | [] => none

def int? (text : List Char) : Option (Except Fault Int) :=
  let (negative,size) := splitSign text
  (natural? size).map (·.map (signed negative))

def power? : List Char → Option Int
  | [] => some 0
  | mark :: sign :: digits =>
    if (mark = 'e' || mark = 'E') && (sign = '-' || sign = '+') && !digits.isEmpty &&
      digits.all isDigit
    then some (signed (sign = '-') (numeral 10 digits))
    else none
  | _ => none

def decimal (negative : Bool) (whole fraction : List Char) (power : Int) : Decimal.Binary64 :=
  let fraction := plainDigits fraction
  .ofDecimal negative (numeral 10 (whole ++ fraction)) (power - fraction.length)

def pointed? (negative : Bool) (text : List Char) : Option Decimal.Binary64 :=
  let whole := text.takeWhile (orUnderscore isDigit)
  match text.drop whole.length with
  | '.' :: rest =>
    let fraction := rest.takeWhile (orUnderscore isDigit)
    if startsNumber whole then
      (power? (rest.drop fraction.length)).map (decimal negative whole fraction)
    else none
  | _ => none

-- Adds up parts from the last to the first. Each is a number of its own, in units that grow
-- by sixty and have to be floating numbers themselves.
def sumOfSixtieths (parts : List Decimal.Binary64) : Except Fault Decimal.Binary64 := do
  let (sum,_) ← parts.reverse.foldlM (fun (sum,unit) part =>
    match Decimal.Binary64.nearest false unit 1 with
    | .infinite _ => .error Fault.overflow
    | _ => .ok (sum.add (part.scale unit),60*unit)) (Decimal.Binary64.nearest false 0 1,1)
  return sum

def pointedSixtieths? (text : List Char) : Option (Except Fault Decimal.Binary64) :=
  let fraction := (text.reverse.takeWhile (orUnderscore isDigit)).reverse
  match text.reverse.drop fraction.length with
  | '.' :: before =>
    match Text.partsAt ':' before.reverse with
    | whole :: sixtieths =>
      if startsNumber whole && whole.all (orUnderscore isDigit) && !sixtieths.isEmpty &&
        sixtieths.all isSixtieth
      then
        let parts := whole :: sixtieths
        some <| sumOfSixtieths <| parts.dropLast.map (decimal false · [] 0) ++
          [decimal false (parts.getLastD []) fraction 0]
      else none
    | [] => none
  | _ => none

def leadingPoint? : List Char → Option Decimal.Binary64
  | '.' :: text =>
    let fraction := text.takeWhile (orUnderscore isDigit)
    if startsNumber text then (power? (text.drop fraction.length)).map (decimal false [] fraction)
    else none
  | _ => none

def float? (text : List Char) : Option (Except Fault Decimal.Binary64) :=
  let (negative,size) := splitSign text
  if String.ofList size ∈ [".inf",".Inf",".INF"] then some (.ok (.infinite negative))
  else if String.ofList text ∈ [".nan",".NaN",".NAN"] then some (.ok .nan)
  else
    (((pointed? negative size).or (leadingPoint? text)).map .ok).or <|
      (pointedSixtieths? size).map (·.map fun sum => if negative then sum.negate else sum)

def digits? (least most : Nat) (text : List Char) : Option (Nat × List Char) :=
  let found := (text.take most).takeWhile isDigit
  if found.length < least then none else some (numeral 10 found,text.drop found.length)

def mark? (mark : Char) : List Char → Option (List Char)
  | c :: rest => if c = mark then some rest else none
  | [] => none

def isGap (c : Char) : Bool := c = ' ' || c = '\t'

def date? (least : Nat) (text : List Char) : Option (Date × List Char) := do
  let (year,rest) ← digits? 4 4 text
  let (month,rest) ← digits? least 2 (← mark? '-' rest)
  let (day,rest) ← digits? least 2 (← mark? '-' rest)
  return (⟨year,month,day⟩,rest)

def fraction? (text : List Char) : Nat × List Char :=
  match text with
  | '.' :: rest =>
    let found := rest.takeWhile isDigit
    (numeral 10 (found.take 6 ++ List.replicate (6 - found.length) '0'),rest.drop found.length)
  | _ => (0,text)

def clock? (text : List Char) : Option (Clock × List Char) := do
  let (hour,rest) ← digits? 1 2 text
  let (minute,rest) ← digits? 2 2 (← mark? ':' rest)
  let (second,rest) ← digits? 2 2 (← mark? ':' rest)
  let (microsecond,rest) := fraction? rest
  return (⟨hour,minute,second,microsecond⟩,rest)

def zone? (text : List Char) : Option (Option Int) :=
  if text.isEmpty then some none
  else match text.dropWhile isGap with
  | ['Z'] => some (some 0)
  | sign :: rest =>
    if sign = '-' ∨ sign = '+' then do
      let (hours,rest) ← digits? 1 2 rest
      let minutes ←
        if rest.isEmpty then some 0
        else do
          let (minutes,rest) ← digits? 2 2 (← mark? ':' rest)
          if rest.isEmpty then some minutes else none
      return some (signed (sign = '-') (60*hours + minutes))
    else none
  | [] => none

def timestamp? (text : List Char) : Option Timestamp :=
  match date? 2 text with
  | some (date,[]) => some (.day date)
  | _ => do
    let (date,rest) ← date? 1 text
    let rest ← match rest with
      | c :: rest =>
        if c = 'T' ∨ c = 't' then some rest
        else if isGap c then some (rest.dropWhile isGap)
        else none
      | [] => none
    let (clock,rest) ← clock? rest
    return .time date clock (← zone? rest)

def casings (word : String) : List String :=
  match word.toList with
  | [] => [""]
  | first :: rest =>
    [word,String.ofList (first.toUpper :: rest),String.ofList ((first :: rest).map Char.toUpper)]

def bool? (text : String) : Option Bool :=
  if text ∈ ["yes","true","on"].flatMap casings then some true
  else if text ∈ ["no","false","off"].flatMap casings then some false
  else none

def isNull (text : String) : Bool := text = "" || text = "~" || text ∈ casings "null"

end Scalar

open Scalar in
def Meaning.ofPlain (text : String) : Except Fault Meaning :=
  let characters := text.toList
  if isNull text then .ok (.value .null)
  else if text = "<<" then .ok .mergeKey
  else if text = "=" then .ok .defaultKey
  else match bool? text with
  | some found => .ok (.value (.bool found))
  | none =>
    match float? characters with
    | some read => read.map fun found => .value (.float found)
    | none =>
      match int? characters with
      | some read => read.map fun found => .value (.int found)
      | none =>
        match timestamp? characters with
        | some found =>
          match found.fault? with
          | some cause => .error (.timestamp cause)
          | none => .ok (.value (.timestamp found))
        | none => .ok (.value (.text text))

end TapeMachine.Yaml
