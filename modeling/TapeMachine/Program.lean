import TapeMachine.Token

-- Programs: rules for a machine with one tape, the runs to make, the states that halt.
namespace TapeMachine

inductive Direction where
  | left | right
  deriving DecidableEq, Repr

inductive DirectionError where
  | notAnArrow (kind : TokenKind)
  | unknown (text : String)

def DirectionError.message : DirectionError → String
  | notAnArrow kind => s!"{kind.label} is not an arrow"
  | unknown text => s!"{Text.quoted text} is not a valid Direction"

namespace Direction

def text : Direction → String
  | left => "<-"
  | right => "->"

def offset : Direction → Int
  | left => -1
  | right => 1

def ofArrow : TokenKind → Except DirectionError Direction
  | .leftArrow => .ok left
  | .rightArrow => .ok right
  | kind => .error (.notAnArrow kind)

def ofText (text : String) : Except DirectionError Direction :=
  if text = left.text then .ok left
  else if text = right.text then .ok right
  else .error (.unknown text)

end Direction

structure Rule where
  state : String
  read : String
  write : String
  direction : Direction
  next : String
  deriving DecidableEq, Repr

def Rule.text (rule : Rule) : String :=
  s!"{rule.state} {rule.read} {rule.write} {rule.direction.text} {rule.next}"

structure Run where
  tape : List String
  state : String
  deriving DecidableEq, Repr

def spaced (symbols : List String) : String := " ".intercalate symbols

def Run.text (run : Run) : String := s!"#run [ {spaced run.tape} ] {run.state}"

def defaultHaltState : String := "HALT"

structure Program where
  rules : List Rule
  runs : List Run
  haltStates : List String
  haltStates_ne_nil : haltStates ≠ []
  deriving DecidableEq

namespace Program

def of (rules : List Rule) (runs : List Run) (haltStates : List String) : Program :=
  if named : haltStates = [] then ⟨rules,runs,[defaultHaltState],by simp⟩
  else ⟨rules,runs,haltStates,named⟩

def halts (program : Program) (state : String) : Bool := state ∈ program.haltStates

-- Among rules for the same state and symbol the first one counts.
def rule? (program : Program) (state symbol : String) : Option Rule :=
  program.rules.find? fun rule => rule.state = state ∧ rule.read = symbol

def occurrences (program : Program) : List String :=
  program.rules.flatMap (fun rule => [rule.state,rule.read,rule.write,rule.next]) ++
    program.runs.flatMap (fun run => run.state :: run.tape)

def symbols (program : Program) : List String := program.occurrences.eraseDups

end Program

end TapeMachine
