import TapeMachine.Yaml.Token
import TapeMachine.Yaml.Scalar

-- The tree of a document's scalars and collections, before their meaning is known.
namespace TapeMachine.Yaml

inductive Node where
  | scalar (content : Content)
  | list (items : List Node)
  | map (entries : List (Node × Node))
  | unmergeable
  deriving Repr

namespace Node

def absent : Node := .scalar (.plain "")

abbrev Taken := Except Fault (Node × List Token)

def faultAt : List Token → Fault
  | .broken fault :: _ => fault
  | _ => .malformed

def separated : List Token → Except Fault (List Token)
  | .separator :: rest => .ok rest
  | tokens => .error (faultAt tokens)

mutual

def take (inFlow underKey : Bool) (room : Nat) : Nat → List Token → Taken
  | _+1,.scalar content :: rest => .ok (.scalar content,rest)
  | fuel+1,tokens =>
    if 0 < room then collection inFlow underKey (room-1) fuel tokens else .error .tooDeep
  | _,tokens => .error (faultAt tokens)
termination_by structural fuel => fuel

-- Indented collections stand only in indented ones, and a list directly under a key needs no
-- indentation of its own.
def collection (inFlow underKey : Bool) (room : Nat) : Nat → List Token → Taken
  | fuel+1,.flowListStart :: rest => flowItems room true [] fuel rest
  | fuel+1,.flowMapStart :: rest => flowEntries room true [] fuel rest
  | fuel+1,.listStart :: rest => if inFlow then .error .malformed else items room [] fuel rest
  | fuel+1,.mapStart :: rest => if inFlow then .error .malformed else entries room [] fuel rest
  | fuel+1,.item :: rest =>
    if underKey then bareItems room [] fuel (.item :: rest) else .error .malformed
  | _,tokens => .error (faultAt tokens)
termination_by structural fuel => fuel

def takeUnless (followers : List Token) (inFlow underKey : Bool) (room : Nat) :
    Nat → List Token → Taken
  | fuel+1,token :: rest =>
    if token ∈ followers then .ok (absent,token :: rest)
    else take inFlow underKey room fuel (token :: rest)
  | _,tokens => .error (faultAt tokens)
termination_by structural fuel => fuel

def items (room : Nat) (before : List Node) : Nat → List Token → Taken
  | fuel+1,.item :: rest => do
    let (node,rest) ← takeUnless [.item,.blockEnd] false false room fuel rest
    items room (node :: before) fuel rest
  | _+1,.blockEnd :: rest => .ok (.list before.reverse,rest)
  | _,tokens => .error (faultAt tokens)
termination_by structural fuel => fuel

def bareItems (room : Nat) (before : List Node) : Nat → List Token → Taken
  | fuel+1,.item :: rest => do
    let (node,rest) ← takeUnless [.item,.key,.value,.blockEnd] false false room fuel rest
    bareItems room (node :: before) fuel rest
  | _+1,rest => .ok (.list before.reverse,rest)
  | _,tokens => .error (faultAt tokens)
termination_by structural fuel => fuel

def entries (room : Nat) (before : List (Node × Node)) : Nat → List Token → Taken
  | fuel+1,.key :: rest => do
    let (key,rest) ← takeUnless [.key,.value,.blockEnd] false true room fuel rest
    entriesBehind room key before fuel rest
  | _+1,.blockEnd :: rest => .ok (.map before.reverse,rest)
  | _,tokens => .error (faultAt tokens)
termination_by structural fuel => fuel

def entriesBehind (room : Nat) (key : Node) (before : List (Node × Node)) :
    Nat → List Token → Taken
  | fuel+1,.value :: rest => do
    let (value,rest) ← takeUnless [.key,.value,.blockEnd] false true room fuel rest
    entries room ((key,value) :: before) fuel rest
  | fuel+1,rest => entries room ((key,absent) :: before) fuel rest
  | _,tokens => .error (faultAt tokens)
termination_by structural fuel => fuel

-- Items in brackets. A key among them makes a mapping of its own, of one entry.
def flowItems (room : Nat) (isFirst : Bool) (before : List Node) : Nat → List Token → Taken
  | _+1,.flowListEnd :: rest => .ok (.list before.reverse,rest)
  | fuel+1,rest => do
    let rest ← if isFirst then .ok rest else separated rest
    match rest with
    | .flowListEnd :: rest => return (.list before.reverse,rest)
    | .key :: rest =>
      let (key,rest) ← takeUnless [.value,.separator,.flowListEnd] true false (room-1) fuel rest
      let (value,rest) ← flowValue (room-1) .flowListEnd fuel rest
      flowItems room false (.map [(key,value)] :: before) fuel rest
    | rest =>
      let (node,rest) ← take true false room fuel rest
      flowItems room false (node :: before) fuel rest
  | _,tokens => .error (faultAt tokens)
termination_by structural fuel => fuel

def flowEntries (room : Nat) (isFirst : Bool) (before : List (Node × Node)) :
    Nat → List Token → Taken
  | _+1,.flowMapEnd :: rest => .ok (.map before.reverse,rest)
  | fuel+1,rest => do
    let rest ← if isFirst then .ok rest else separated rest
    match rest with
    | .flowMapEnd :: rest => return (.map before.reverse,rest)
    | .key :: rest =>
      let (key,rest) ← takeUnless [.value,.separator,.flowMapEnd] true false room fuel rest
      let (value,rest) ← flowValue room .flowMapEnd fuel rest
      flowEntries room false ((key,value) :: before) fuel rest
    | rest =>
      let (key,rest) ← take true false room fuel rest
      flowEntries room false ((key,absent) :: before) fuel rest
  | _,tokens => .error (faultAt tokens)
termination_by structural fuel => fuel

def flowValue (room : Nat) (closing : Token) : Nat → List Token → Taken
  | fuel+1,.value :: rest => takeUnless [.separator,closing] true false room fuel rest
  | _+1,rest => .ok (absent,rest)
  | _,tokens => .error (faultAt tokens)
termination_by structural fuel => fuel

end

def endsAt (tokens : List Token) (node : Node) : Except Fault Node :=
  match tokens.dropWhile (· = .documentEnd) with
  | [.streamEnd] => .ok node
  | tokens => .error (faultAt tokens)

def ofTokens (room : Nat) (tokens : List Token) : Except Fault (Option Node) := do
  let fuel := 4*tokens.length+4
  match tokens with
  | [.streamEnd] => return none
  | .documentStart :: rest =>
    let (node,rest) ←
      takeUnless [.documentStart,.documentEnd,.streamEnd] false false room fuel rest
    return some (← node.endsAt rest)
  | tokens =>
    let (node,rest) ← take false false room fuel tokens
    return some (← node.endsAt rest)

end Node

end TapeMachine.Yaml
