import TapeMachine.Yaml.Token
import TapeMachine.Yaml.Token.Scalar

-- Reading a document's layout: indentation opens and closes collections, and a scalar turns
-- out to be a key only when its colon is found.
namespace TapeMachine.Yaml

-- Something that may be a key: where it would stand among the tokens, where it began, and
-- whether nothing but a key may begin there.
structure PendingKey where
  token : Nat
  required : Bool
  index : Nat
  line : Nat
  column : Nat

structure Layout where
  place : Place
  tokens : List Token
  count : Nat
  columns : List Nat
  pending : List (Option PendingKey)
  keyAllowed : Bool

abbrev Reads := Except Fault Layout

namespace Layout

def start (document : Stretch) : Layout := ⟨.start document,[],0,[],[none],true⟩

def inFlow (layout : Layout) : Bool := 1 < layout.pending.length

def add (token : Token) (layout : Layout) : Layout :=
  { layout with tokens := token :: layout.tokens, count := layout.count+1 }

def insert (position : Nat) (token : Token) (layout : Layout) : Layout :=
  let behind := layout.count - position
  { layout with
    tokens := layout.tokens.take behind ++ token :: layout.tokens.drop behind
    count := layout.count+1 }

def goTo (place : Place) (layout : Layout) : Layout := { layout with place }

def allowKey (allowed : Bool) (layout : Layout) : Layout := { layout with keyAllowed := allowed }

def overBlanks : Nat → Place → Bool → Place × Bool
  | 0,place,endedLine => (place,endedLine)
  | fuel+1,place,endedLine =>
    let place := place.passWhile (· = ' ')
    let place := if place.ahead = some '#' then place.passWhile (!isBreak ·) else place
    if place.atBreak then overBlanks fuel place.next true else (place,endedLine)

def skipBlanks (layout : Layout) : Layout :=
  let place := layout.place
  let place := if place.index = 0 ∧ place.ahead = some byteOrderMark then place.next else place
  let (place,endedLine) := overBlanks (place.size+1) place false
  { layout with place, keyAllowed := layout.keyAllowed || endedLine && !layout.inFlow }

def keyReach : Nat := 1024

def PendingKey.isOver (place : Place) (key : PendingKey) : Bool :=
  key.line ≠ place.line || keyReach < place.index - key.index

def dropOverdue (layout : Layout) : Reads :=
  let isOver := PendingKey.isOver layout.place
  if layout.pending.any (·.any fun key => isOver key && key.required) then .error .malformed
  else .ok { layout with pending := layout.pending.map (·.filter (!isOver ·)) }

def dropPending (layout : Layout) : Reads :=
  match layout.pending with
  | some key :: outer =>
    if key.required then .error .malformed else .ok { layout with pending := none :: outer }
  | _ => .ok layout

def column (layout : Layout) : Int := (layout.columns.head?.map Int.ofNat).getD (-1)

def notePending (layout : Layout) : Reads :=
  if layout.keyAllowed then
    match layout.dropPending with
    | .error fault => .error fault
    | .ok layout =>
      let place := layout.place
      let required := !layout.inFlow && layout.column = place.column
      let key : PendingKey :=
        ⟨layout.count,required,place.index,place.line,place.column⟩
      .ok { layout with pending := some key :: layout.pending.drop 1 }
  else .ok layout

def closeTo (column : Int) (layout : Layout) : Layout :=
  if layout.inFlow then layout
  else
    let closed := layout.columns.takeWhile fun (inner : Nat) => column < (inner : Int)
    { layout with
      columns := layout.columns.drop closed.length
      tokens := List.replicate closed.length .blockEnd ++ layout.tokens
      count := layout.count+closed.length }

def openAt (column : Nat) (position : Nat) (token : Token) (layout : Layout) : Layout :=
  if layout.column < column then
    { layout with columns := column :: layout.columns }.insert position token
  else layout

def openHere (token : Token) (layout : Layout) : Layout :=
  layout.openAt layout.place.column layout.count token

def documentMark (token : Token) (layout : Layout) : Reads := do
  let layout ← (layout.closeTo (-1)).dropPending
  return ((layout.add token).goTo (layout.place.pass 3)).allowKey false

-- Brackets and braces go no deeper than this. Nodes stop at less, but they are not taken yet
-- as long as a bracket may turn out to begin a key.
def greatestFlow : Nat := 2*keyReach

def openFlow (token : Token) (layout : Layout) : Reads := do
  if greatestFlow < layout.pending.length then throw .tooDeep
  let layout ← layout.notePending
  let layout := { layout with pending := none :: layout.pending }
  return ((layout.add token).goTo layout.place.next).allowKey true

def closeFlow (token : Token) (layout : Layout) : Reads := do
  let layout ← layout.dropPending
  let next ← layout.place.next.reached
  if layout.inFlow then
    let layout := { layout with pending := layout.pending.drop 1 }
    return ((layout.add token).goTo next).allowKey false
  else throw .malformed

def separator (layout : Layout) : Reads := do
  let layout ← layout.dropPending
  return ((layout.add .separator).goTo layout.place.next).allowKey true

def begins (token : Token) (layout : Layout) : Reads :=
  if layout.inFlow then .ok layout
  else if layout.keyAllowed then .ok (layout.openHere token)
  else .error .malformed

def item (layout : Layout) : Reads := do
  let layout ← (← layout.begins .listStart).dropPending
  return ((layout.add .item).goTo layout.place.next).allowKey true

def explicitKey (layout : Layout) : Reads := do
  let layout ← (← layout.begins .mapStart).dropPending
  return ((layout.add .key).goTo layout.place.next).allowKey (!layout.inFlow)

def colon (layout : Layout) : Reads :=
  match layout.pending with
  | some key :: outer =>
    let layout := { layout with pending := none :: outer }.insert key.token .key
    let layout := if layout.inFlow then layout else layout.openAt key.column key.token .mapStart
    .ok (((layout.add .value).goTo layout.place.next).allowKey false)
  | _ => do
    let layout ← (← layout.begins .mapStart).dropPending
    return ((layout.add .value).goTo layout.place.next).allowKey (!layout.inFlow)

def quoted (mark : Char) (layout : Layout) : Reads := do
  let layout ← layout.notePending
  let (content,place) ← Scalar.quotation mark layout.place
  return ((layout.add (.scalar content)).goTo place).allowKey false

def plain (layout : Layout) : Reads := do
  let layout ← layout.notePending
  let read ← Scalar.plain layout.inFlow (layout.column+1).toNat layout.place
  return ((layout.add (.scalar (.plain (String.ofList read.text)))).goTo read.place).allowKey
    read.endedLine

def isMark (c : Char) : Bool := c ∈ "-?:,[]\x7b\x7d#&*!|>'\"%@\x60".toList

def beginsPlain (inFlow : Bool) (c : Char) (following : Option Char) : Bool :=
  !(isBlankOrBreak c || isMark c) ||
    !standsAlone following && (c = '-' || !inFlow && (c = '?' || c = ':'))

def foresight (inFlow : Bool) (c : Char) (place : Place) : Nat :=
  if place.column = 0 ∧ (c = '-' ∨ c = '.') then
    if (place.rest.take 3).all (· = c) then 3 else 2
  else if isMark c ∧ c ∉ "[]\x7b\x7d,'\"".toList ∧ ¬(inFlow ∧ (c = '?' ∨ c = ':')) then 1
  else 0

def token (c : Char) (layout : Layout) : Reads := do
  let place := layout.place
  let _ ← (place.pass (foresight layout.inFlow c place)).reached
  let following := place.next.ahead
  let alone := standsAlone following
  if place.column = 0 ∧ place.atMark '-' then layout.documentMark .documentStart
  else if place.column = 0 ∧ place.atMark '.' then layout.documentMark .documentEnd
  else if c = '[' then layout.openFlow .flowListStart
  else if c = '\x7b' then layout.openFlow .flowMapStart
  else if c = ']' then layout.closeFlow .flowListEnd
  else if c = '\x7d' then layout.closeFlow .flowMapEnd
  else if c = ',' then layout.separator
  else if c = '-' ∧ alone then layout.item
  else if c = '?' ∧ (layout.inFlow ∨ alone) then layout.explicitKey
  else if c = ':' ∧ (layout.inFlow ∨ alone) then layout.colon
  else if c = '\'' ∨ c = '"' then layout.quoted c
  else if beginsPlain layout.inFlow c following then layout.plain
  else throw .malformed

def finish (layout : Layout) : Reads := do
  let layout ← (layout.closeTo (-1)).dropPending
  return layout.add .streamEnd

def step (layout : Layout) : Except Fault (Layout × Bool) := do
  let layout := layout.skipBlanks
  let layout ← (layout.goTo (← layout.place.reached)).dropOverdue
  let layout := layout.closeTo layout.place.column
  match layout.place.ahead with
  | none => return (← layout.finish,true)
  | some c =>
    let layout ← layout.token c
    return (← (layout.goTo (← layout.place.reached)).dropOverdue,false)

def settled (layout : Layout) : List Token :=
  let pending := layout.pending.filterMap (·.map PendingKey.token)
  (layout.tokens.drop (layout.count - pending.foldl min layout.count)).reverse

def readFrom : Nat → Layout → List Token
  | 0,layout => layout.settled ++ [.broken .malformed]
  | fuel+1,layout =>
    match layout.step with
    | .error fault => layout.settled ++ [.broken fault]
    | .ok (next,hasEnded) => if hasEnded then next.tokens.reverse else readFrom fuel next

end Layout

def Token.read (document : Stretch) : List Token :=
  Layout.readFrom (document.text.length+1) (.start document)

end TapeMachine.Yaml
