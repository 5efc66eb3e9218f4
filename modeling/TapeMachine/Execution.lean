import TapeMachine.Machine
import TapeMachine.Log

-- Whole runs: every moment on the way, how the run ended, and what is shown of it.
namespace TapeMachine

structure Moment where
  step : Nat
  rule : Rule
  headed : Tape.Headed
  deriving DecidableEq, Repr

def Moment.cells (moment : Moment) : List String := moment.headed.cells
def Moment.head (moment : Moment) : Nat := moment.headed.place

def Moment.text (moment : Moment) : String :=
  moment.rule.text ++ "\n" ++ drawTape moment.cells moment.head

inductive RunError where
  | noTape
  | machine (cause : MachineError)
  | stepLimit (limit : Int) (state : String)
  deriving DecidableEq, Repr

def RunError.message : RunError → String
  | noTape => TapeError.empty.message
  | machine cause => cause.message
  | stepLimit limit state => s!"Step limit of {limit} reached without halting (state '{state}')"

-- How a run ends. A refused rule has been shown already, although it was never applied.
inductive Ending where
  | halted (machine : Machine)
  | noTape
  | stuck (cause : MachineError)
  | refused (moment : Moment) (cause : MachineError)
  | limited (limit : Int) (state : String)
  deriving DecidableEq, Repr

def Ending.error? : Ending → Option RunError
  | halted _ => none
  | noTape => some .noTape
  | stuck cause => some (.machine cause)
  | refused _ cause => some (.machine cause)
  | limited limit state => some (.stepLimit limit state)

structure Execution where
  run : Run
  moments : List Moment
  ending : Ending
  deriving DecidableEq, Repr

def reached? (limit : Option Int) (steps : Nat) : Option Int := limit.filter (· ≤ steps)

-- Applies rules until the run ends. The past is given with its latest moment first, and the
-- fuel bounds the rules still to be applied; the result is missing only if that is too few.
def Machine.moments (program : Program) (limit : Option Int) :
    Nat → List Moment → Machine → Option (List Moment × Ending)
  | fuel,past,machine =>
    if machine.halted then some (past.reverse,.halted machine)
    else match reached? limit machine.steps with
      | some most => some (past.reverse,.limited most machine.state)
      | none =>
        match machine.lookup program with
        | .error cause => some (past.reverse,.stuck cause)
        | .ok rule =>
          let moment : Moment := ⟨machine.steps,rule,machine.headed⟩
          match machine.apply program rule with
          | .error cause => some (past.reverse,.refused moment cause)
          | .ok next =>
            match fuel with
            | 0 => none
            | fuel+1 => next.moments program limit fuel (moment :: past)

def fuelFor (limit : Option Int) (patience : Nat) : Nat :=
  match limit with
  | some most => most.toNat
  | none => patience

def Program.execute (program : Program) (limit : Option Int) (patience : Nat) (run : Run) :
    Option Execution :=
  match Machine.start run with
  | .error _ => some ⟨run,[],.noTape⟩
  | .ok machine =>
    (machine.moments program limit (fuelFor limit patience) []).map
      fun (moments,ending) => ⟨run,moments,ending⟩

def Program.executeAll (program : Program) (limit : Option Int) (patience : Nat) :
    Option (List Execution) :=
  go program.runs
where
  go : List Run → Option (List Execution)
  | [] => some []
  | run :: runs =>
    match program.execute limit patience run with
    | none => none
    | some execution =>
      if execution.ending.error?.isSome then some [execution]
      else (go runs).map (execution :: ·)

structure RunResult where
  run : Run
  finalState : String
  cells : List String
  head : Nat
  steps : Nat
  history : List Moment
  deriving DecidableEq, Repr

namespace Execution

def result (keepHistory : Bool) (execution : Execution) : Except RunError RunResult :=
  match execution.ending with
  | .halted machine =>
    .ok ⟨execution.run,machine.state,machine.tape.cells,machine.head,machine.steps,
      if keepHistory then execution.moments else []⟩
  | .noTape => .error .noTape
  | .stuck cause => .error (.machine cause)
  | .refused _ cause => .error (.machine cause)
  | .limited limit state => .error (.stepLimit limit state)

def trace (execution : Execution) : String :=
  let shown := execution.run.text ++ "\n" ++ String.join (execution.moments.map Moment.text)
  match execution.ending with
  | .noTape => ""
  | .halted machine =>
    let state := machine.state
    shown ++ drawTape machine.tape.cells machine.head ++ s!" -- HALT -- with {state}\n\n"
  | .refused moment _ => shown ++ moment.text
  | .stuck _ => shown
  | .limited _ _ => shown

def flushes (execution : Execution) : Nat :=
  match execution.ending with
  | .noTape => 0
  | _ => execution.moments.length+1

def logOrigin : String := "turir.machine"

def log (execution : Execution) : List Log.Record :=
  let begun : Log.Record := ⟨.info,logOrigin,"running " ++ execution.run.text⟩
  let applied := execution.moments.map fun moment =>
    let step := moment.step+1
    (⟨.debug,logOrigin,s!"step {step}: " ++ moment.rule.text⟩ : Log.Record)
  match execution.ending with
  | .noTape => []
  | .halted machine =>
    let state := machine.state
    let steps := machine.steps
    begun :: applied ++
      [⟨.info,logOrigin,s!"halted in state {state} after {steps} step(s)"⟩]
  | _ => begun :: applied

end Execution

end TapeMachine
