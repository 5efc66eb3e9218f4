import TapeMachine.Yaml.Scalar
import TapeMachine.Yaml.Stretch
import TapeMachine.Yaml.Token

-- Scalars as they stand in a document: plain, or in one of the two kinds of quotation marks,
-- and folded over lines.
namespace TapeMachine.Yaml

def isBreak (c : Char) : Bool := c ∈ ['\n','\u0085','\u2028','\u2029']

def breakValue (c : Char) : Char := if c = '\u0085' then '\n' else c

def isBlankOrBreak (c : Char) : Bool := Scalar.isGap c || isBreak c

def standsAlone (following : Option Char) : Bool := (following.map isBlankOrBreak).getD true

def byteOrderMark : Char := '\ufeff'

-- Where reading stands in a document of a known size, with all numbers counting from zero.
-- Columns leave out byte order marks. The rest of the text may end with a fault.
structure Place where
  rest : List Char
  fault : Option Fault
  size : Nat
  index : Nat
  line : Nat
  column : Nat

namespace Place

def start (document : Stretch) : Place :=
  ⟨document.text,document.fault,document.text.length,0,0,0⟩

def reached (place : Place) : Except Fault Place :=
  match place.rest,place.fault with
  | [],some fault => .error fault
  | _,_ => .ok place

def lack (place : Place) : Fault := place.fault.getD .malformed

def ahead (place : Place) : Option Char := place.rest.head?

def next (place : Place) : Place :=
  match place.rest with
  | [] => place
  | c :: rest =>
    let place := { place with rest, index := place.index+1 }
    if isBreak c then { place with line := place.line+1, column := 0 }
    else if c = byteOrderMark then place
    else { place with column := place.column+1 }

def pass : Nat → Place → Place
  | 0,place => place
  | count+1,place => pass count place.next

def passWhile (keep : Char → Bool) (place : Place) : Place :=
  place.pass (place.rest.takeWhile keep).length

def atBreak (place : Place) : Bool := (place.ahead.map isBreak).getD false

def atMark (mark : Char) (place : Place) : Bool :=
  match place.rest with
  | a :: b :: c :: rest => a = mark && b = mark && c = mark && standsAlone rest.head?
  | _ => false

def atDocumentMark (place : Place) : Except Fault Bool := do
  let looksSo := place.rest.take 3 ∈ [['-','-','-'],['.','.','.']]
  let _ ← (place.pass (if looksSo then 3 else 2)).reached
  return place.atMark '-' || place.atMark '.'

end Place

-- What a line's end inside a scalar means: a blank for a single one, and otherwise the breaks
-- of the empty lines behind it. Separators are never folded away.
def folded (first : Char) (breaks : List Char) : List Char :=
  (if first ≠ '\n' then [first] else if breaks.isEmpty then [' '] else []) ++ breaks

def emptyLines (gap : Char → Bool) :
    Nat → List Char → Place → Except Fault (Option (List Char) × Place)
  | 0,breaks,place => .ok (some breaks.reverse,place)
  | fuel+1,breaks,place => do
    if ← place.atDocumentMark then return (none,place)
    let place := place.passWhile gap
    match place.ahead with
    | none => return (some breaks.reverse,place)
    | some c =>
      if isBreak c then emptyLines gap fuel (breakValue c :: breaks) place.next
      else return (some breaks.reverse,place)

def foldedAt (gap : Char → Bool) (place : Place) : Except Fault (Option (List Char) × Place) :=
  match place.ahead with
  | none => .ok (some [],place)
  | some first => do
    let (breaks,after) ← emptyLines gap place.size [] place.next
    return (breaks.map (folded (breakValue first)),after)

namespace Scalar

def isFlowMark (c : Char) : Bool := c ∈ [',','[',']','{','}']

def endsPlain (inFlow : Bool) (c : Char) (following : Option Char) : Bool :=
  isBlankOrBreak c ||
    c = ':' && (standsAlone following || inFlow && (following.map isFlowMark).getD false) ||
    inFlow && (c = '?' || isFlowMark c)

def plainWord (inFlow : Bool) : List Char → List Char
  | [] => []
  | c :: rest => if endsPlain inFlow c rest.head? then [] else c :: plainWord inFlow rest

def betweenWords (place : Place) : Except Fault (List Char × Place × Bool) := do
  let blanks := place.rest.takeWhile (· = ' ')
  let after := place.pass blanks.length
  if after.atBreak then
    let (meaning,last) ← foldedAt (· = ' ') after
    return (meaning.getD [],last,true)
  else return (blanks,after,false)

structure Plain where
  text : List Char
  place : Place
  endedLine : Bool

-- Reads words while the scalar goes on: not over a comment, and not back to the column of the
-- collection around it. Characters are taken the latest first.
def plainFrom (inFlow : Bool) (indent : Nat) :
    Nat → List Char → List Char → Place → Bool → Except Fault Plain
  | 0,taken,_,place,endedLine => .ok ⟨taken.reverse,place,endedLine⟩
  | fuel+1,taken,between,place,endedLine => do
    let word := plainWord inFlow place.rest
    if place.ahead = some '#' ∨ word.isEmpty then return ⟨taken.reverse,place,endedLine⟩
    let taken := word.reverse ++ between.reverse ++ taken
    let (between,after,endedLine) ← betweenWords (place.pass word.length)
    if between.isEmpty ∨ (!inFlow && after.column < indent) then
      return ⟨taken.reverse,after,endedLine⟩
    plainFrom inFlow indent fuel taken between after endedLine

def plain (inFlow : Bool) (indent : Nat) (place : Place) : Except Fault Plain :=
  plainFrom inFlow indent (place.size+1) [] [] place false

def escaped : List (Char × Char) :=
  [('0','\x00'),('a','\x07'),('b','\x08'),('t','\t'),('\t','\t'),('n','\n'),('v','\x0b'),
    ('f','\x0c'),('r','\r'),('e','\x1b'),(' ',' '),('"','"'),('\\','\\'),('/','/'),
    ('N','\u0085'),('_','\u00a0'),('L','\u2028'),('P','\u2029')]

def escapeWidth (letter : Char) : Option Nat :=
  [('x',2),('u',4),('U',8)].lookup letter

def greatestCharacter : Nat := 0x10ffff
def greatestNumber : Nat := 0x7fffffff

def characterNumber (digits : List Char) : Except Fault Nat :=
  let number := numeral 16 digits
  if greatestNumber < number then .error .overflow
  else if greatestCharacter < number then .error .noCharacter
  else .ok number

def escape (place : Place) : Except Fault (List Nat × Place) :=
  match place.ahead with
  | none => .error place.lack
  | some letter =>
    match escaped.lookup letter with
    | some c => .ok ([c.toNat],place.next)
    | none =>
      match escapeWidth letter with
      | some width =>
        let digits := place.next.rest.take width
        if !digits.all isHexDigit then .error .malformed
        else if digits.length < width then .error place.lack
        else do return ([← characterNumber digits],place.next.pass width)
      | none =>
        if place.atBreak then do
          let (some breaks,after) ← emptyLines isGap place.size [] place.next
            | throw .malformed
          return (breaks.map Char.toNat,after)
        else .error .malformed

def quotedBlanks (place : Place) : Except Fault (List Char × Place) := do
  let blanks := place.rest.takeWhile isGap
  let after := place.pass blanks.length
  if after.atBreak then
    let (some meaning,last) ← foldedAt isGap after | throw .malformed
    return (meaning,last)
  else return (blanks,after)

def quotedFrom (mark : Char) : Nat → List Nat → Place → Except Fault (Content × Place)
  | 0,_,place => .error place.lack
  | fuel+1,taken,place =>
    match place.rest with
    | [] => .error place.lack
    | c :: rest =>
      if isBlankOrBreak c then
        match quotedBlanks place with
        | .error fault => .error fault
        | .ok (meaning,after) =>
          quotedFrom mark fuel ((meaning.map Char.toNat).reverse ++ taken) after
      else if mark = '\'' ∧ c = '\'' ∧ rest.head? = some '\'' then
        quotedFrom mark fuel ('\''.toNat :: taken) (place.pass 2)
      else if c = mark then .ok (.ofNumbers taken.reverse,place.next)
      else if mark = '"' ∧ c = '\\' then
        match escape place.next with
        | .error fault => .error fault
        | .ok (meaning,after) => quotedFrom mark fuel (meaning.reverse ++ taken) after
      else quotedFrom mark fuel (c.toNat :: taken) place.next

def quotation (mark : Char) (place : Place) : Except Fault (Content × Place) :=
  quotedFrom mark (place.size+1) [] place.next

end Scalar

end TapeMachine.Yaml
