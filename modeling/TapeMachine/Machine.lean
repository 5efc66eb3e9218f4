import TapeMachine.Program
import TapeMachine.Tape.Headed

-- The machine itself: one head on one tape, driven by a program's rules.
namespace TapeMachine

inductive MachineError where
  | undefined (state symbol : String)
  | leftOfTape (state : String) (step : Nat)
  -- The head stands on no cell, as it may after halting.
  | offTape
  deriving DecidableEq, Repr

def MachineError.message : MachineError → String
  | undefined state symbol => s!"State '{state}' and read '{symbol}' combination is not defined"
  | leftOfTape state step =>
    s!"Head moved left of the first tape cell at step {step} (state '{state}')"
  | offTape => TapeError.outside.message

structure Machine where
  headed : Tape.Headed
  state : String
  steps : Nat
  halted : Bool
  deriving DecidableEq, Repr

namespace Machine

def tape (machine : Machine) : Tape := machine.headed.tape
def head (machine : Machine) : Nat := machine.headed.place

def start (run : Run) : Except TapeError Machine :=
  match Tape.Headed.of run.tape with
  | .ok headed => .ok ⟨headed,run.state,0,false⟩
  | .error cause => .error cause

def symbol (machine : Machine) : Except MachineError String :=
  match machine.headed.read with
  | .ok symbol => .ok symbol
  | .error _ => .error .offTape

def lookup (program : Program) (machine : Machine) : Except MachineError Rule :=
  match machine.symbol with
  | .error cause => .error cause
  | .ok symbol =>
    match program.rule? machine.state symbol with
    | some rule => .ok rule
    | none => .error (.undefined machine.state symbol)

-- The move is judged before anything is written. Entering a halt state ends the machine
-- before the tape would grow under the head.
def apply (program : Program) (rule : Rule) (machine : Machine) : Except MachineError Machine :=
  if machine.headed.canMove rule.direction then
    match machine.headed.write rule.write with
    | .error _ => .error .offTape
    | .ok written =>
      let moved := written.move rule.direction
      if program.halts rule.next then .ok ⟨moved,rule.next,machine.steps+1,true⟩
      else .ok ⟨moved.reach,rule.next,machine.steps+1,machine.halted⟩
  else .error (.leftOfTape rule.next (machine.steps+1))

def step (program : Program) (machine : Machine) : Except MachineError (Rule × Machine) :=
  match machine.lookup program with
  | .error cause => .error cause
  | .ok rule =>
    match machine.apply program rule with
    | .error cause => .error cause
    | .ok next => .ok (rule,next)

end Machine

end TapeMachine
