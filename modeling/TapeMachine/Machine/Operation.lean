import TapeMachine.Machine

-- Machines driven by hand: single operations in any order, also behind failures and after
-- the machine has halted.
namespace TapeMachine.Machine

inductive Operation where
  | step
  | lookup
  | symbol
  | apply (rule : Rule)
  deriving DecidableEq, Repr

inductive Found where
  | rule (rule : Rule)
  | symbol (symbol : String)
  | nothing
  deriving DecidableEq, Repr

-- A failing operation leaves the machine as it was.
def perform (program : Program) (operation : Operation) (machine : Machine) :
    Except MachineError Found × Machine :=
  match operation with
  | .step =>
    match machine.step program with
    | .ok (rule,after) => (.ok (.rule rule),after)
    | .error cause => (.error cause,machine)
  | .lookup => ((machine.lookup program).map .rule,machine)
  | .symbol => (machine.symbol.map .symbol,machine)
  | .apply rule =>
    match machine.apply program rule with
    | .ok after => (.ok .nothing,after)
    | .error cause => (.error cause,machine)

def performAll (program : Program) :
    List Operation → Machine → List (Except MachineError Found × Machine)
  | [],_ => []
  | operation :: operations,machine =>
    let outcome := machine.perform program operation
    outcome :: performAll program operations outcome.2

end TapeMachine.Machine
