import TapeMachine.Decimal.Shortest
import TapeMachine.Text.Digit
import TapeMachine.Text.Quoted
import TapeMachine.Yaml.Timestamp

-- The values that documents describe.
namespace TapeMachine.Yaml

inductive Value where
  | null
  | bool (value : Bool)
  | int (value : Int)
  | float (value : Decimal.Binary64)
  | text (value : String)
  -- A text with numbers among its characters that are none, the halves of surrogate pairs.
  | rawText (numbers : List Nat)
  | bytes (content : List UInt8)
  | timestamp (value : Timestamp)
  | list (items : List Value)
  | map (entries : List (Value × Value))
  | foreign (shown : Except String String)
  deriving Repr, Inhabited

namespace Value

def boolText (value : Bool) : String := if value then "True" else "False"

mutual

def shown : Value → String
  | null => "None"
  | bool value => boolText value
  | int value => toString value
  | float value => value.text
  | text value => Text.quoted value
  | rawText numbers => Text.quotedNumbers numbers
  | bytes content => Text.quotedBytes content
  | timestamp value => value.shown
  | list items => "[" ++ ", ".intercalate (shownItems items) ++ "]"
  | map entries => "\x7b" ++ ", ".intercalate (shownEntries entries) ++ "\x7d"
  | foreign shown => shown.toOption.getD ""

def shownItems : List Value → List String
  | [] => []
  | item :: items => shown item :: shownItems items

def shownEntries : List (Value × Value) → List String
  | [] => []
  | (key,value) :: entries => (shown key ++ ": " ++ shown value) :: shownEntries entries

end

def plain : Value → String
  | text value => value
  | rawText numbers => String.ofList <| numbers.flatMap fun n =>
    if n.isValidChar then [Char.ofNat n] else Text.quotedNumber '"' n
  | timestamp value => value.plain
  | value => value.shown

inductive Kind where
  | null | number | text | bytes | day | localTime | zonedTime | collection
  deriving DecidableEq, Repr

def kind : Value → Kind
  | null => .null
  | bool _ => .number
  | int _ => .number
  | float _ => .number
  | text _ => .text
  | rawText _ => .text
  | bytes _ => .bytes
  | timestamp (.day _) => .day
  | timestamp (.time _ _ none) => .localTime
  | timestamp (.time _ _ (some _)) => .zonedTime
  | list _ => .collection
  | map _ => .collection
  | foreign _ => .collection

def quotient : Value → Int × Nat
  | bool value => (if value then 1 else 0,1)
  | int value => (value,1)
  | float (.finite negative significand exponent) =>
    let (numerator,denominator) := Decimal.Binary64.quotient significand exponent
    (if negative then -(numerator : Int) else numerator,denominator)
  | _ => (0,1)

def side : Value → Int
  | float (.infinite negative) => if negative then -1 else 1
  | _ => 0

def numbers : Value → List Nat
  | text value => value.toList.map Char.toNat
  | rawText numbers => numbers
  | bytes content => content.map UInt8.toNat
  | _ => []

def le (a b : Value) : Bool :=
  match a.kind,a,b with
  | .text,a,b => !b.numbers.lex a.numbers fun m n => m < n
  | .bytes,a,b => !b.numbers.lex a.numbers fun m n => m < n
  | _,timestamp a,timestamp b => a.instant ≤ b.instant
  | _,a,b =>
    a.side < b.side || a.side = b.side && a.quotient.1*b.quotient.2 ≤ b.quotient.1*a.quotient.2

def isNan : Value → Bool
  | float .nan => true
  | _ => false

-- Keys are the same if neither comes before the other. Numbers are the same key whatever
-- kind of number they are, and a truth value is one of the numbers zero and one.
def sameKey (a b : Value) : Bool :=
  match a,b with
  | text a,text b => a = b
  | a,b => a.kind = b.kind && a.kind ≠ .collection && a.isNan = b.isNan && a.le b && b.le a

def isText (text : String) : Value → Bool
  | .text found => found = text
  | _ => false

mutual

def unshown? : Value → Option String
  | int value => if Text.isWritable value then none else some (Text.beyondLimit "")
  | list items => unshownItem? items
  | map entries => unshownPair? entries
  | foreign (.error reason) => some reason
  | _ => none

def unshownItem? : List Value → Option String
  | [] => none
  | item :: items => (unshown? item).or (unshownItem? items)

def unshownPair? : List (Value × Value) → Option String
  | [] => none
  | (key,value) :: entries => ((unshown? key).or (unshown? value)).or (unshownPair? entries)

end

def isNull : Value → Bool
  | null => true
  | _ => false

def whole? : Value → Option Int
  | int value => some value
  | bool value => some (if value then 1 else 0)
  | _ => none

def isTrue : Value → Bool
  | null => false
  | bool value => value
  | int value => value ≠ 0
  | float (.finite _ significand _) => significand ≠ 0
  | float _ => true
  | text value => value ≠ ""
  | rawText _ => true
  | bytes content => !content.isEmpty
  | timestamp _ => true
  | list items => !items.isEmpty
  | map entries => !entries.isEmpty
  | foreign _ => true

def get? (key : String) (entries : List (Value × Value)) : Option Value :=
  (entries.find? fun (name,_) => name.isText key).map (·.2)

def put (entries : List (Value × Value)) (key value : Value) : List (Value × Value) :=
  if entries.any fun (known,_) => known.sameKey key then
    entries.map fun (known,old) => (known,if known.sameKey key then value else old)
  else entries ++ [(key,value)]

end Value

end TapeMachine.Yaml
