import TapeMachine.Execution

-- Interpreters at work. They write down what a machine does while it runs, and see to it that
-- this is passed on before the next step is taken.
namespace TapeMachine

inductive Emission where
  | written (text : String)
  | flushed
  deriving DecidableEq, Repr

def Emission.text : Emission → String
  | written text => text
  | flushed => ""

def emittedText (sink : List Emission) : String := String.join (sink.map Emission.text)
def emittedFlushes (sink : List Emission) : Nat := sink.count .flushed

structure Interpreter where
  program : Program
  limit : Option Int
  traces : Bool
  keepsHistory : Bool
  deriving DecidableEq

namespace Interpreter

structure Session where
  machine : Machine
  history : List Moment
  sink : List Emission
  deriving DecidableEq, Repr

def emit (interpreter : Interpreter) (emission : Emission) (session : Session) : Session :=
  if interpreter.traces then { session with sink := session.sink ++ [emission] } else session

def record (interpreter : Interpreter) (moment : Moment) (session : Session) : Session :=
  let kept := if interpreter.keepsHistory then { session with history := session.history ++ [moment] }
    else session
  interpreter.emit (.written moment.text) kept

def advance (interpreter : Interpreter) (session : Session) : Option RunError × Session :=
  let machine := session.machine
  match reached? interpreter.limit machine.steps with
  | some most => (some (.stepLimit most machine.state),session)
  | none =>
    match machine.lookup interpreter.program with
    | .error cause => (some (.machine cause),session)
    | .ok rule =>
      let shown := interpreter.record ⟨machine.steps,rule,machine.headed⟩ session
      match machine.apply interpreter.program rule with
      | .error cause => (some (.machine cause),shown)
      | .ok next => (none,interpreter.emit .flushed { shown with machine := next })

-- The fuel bounds the rules to be applied; the result is missing only if that is too few.
def advanceAll (interpreter : Interpreter) : Nat → Session → Option (Option RunError × Session)
  | fuel,session =>
    if session.machine.halted then some (none,session)
    else match interpreter.advance session with
      | (some cause,stopped) => some (some cause,stopped)
      | (none,next) =>
        match fuel with
        | 0 => none
        | fuel+1 => interpreter.advanceAll fuel next

def conclude (interpreter : Interpreter) (run : Run) :
    Option RunError × Session → List Emission × Except RunError RunResult
  | (some cause,session) => ((interpreter.emit .flushed session).sink,.error cause)
  | (none,session) =>
    let machine := session.machine
    let state := machine.state
    let drawn := interpreter.emit (.written (drawTape machine.tape.cells machine.head)) session
    let told := interpreter.emit (.written s!" -- HALT -- with {state}\n\n") drawn
    ((interpreter.emit .flushed told).sink,
      .ok ⟨run,state,machine.tape.cells,machine.head,machine.steps,session.history⟩)

def interpret (interpreter : Interpreter) (patience : Nat) (run : Run) (sink : List Emission) :
    Option (List Emission × Except RunError RunResult) :=
  match Machine.start run with
  | .error _ => some (sink,.error .noTape)
  | .ok machine =>
    let begun := interpreter.emit (.written (run.text ++ "\n")) ⟨machine,[],sink⟩
    (interpreter.advanceAll (fuelFor interpreter.limit patience) begun).map (interpreter.conclude run)

def interpretRuns (interpreter : Interpreter) (patience : Nat) :
    List Run → List Emission → Option (List Emission × Except RunError (List RunResult))
  | [],sink => some (sink,.ok [])
  | run :: runs,sink =>
    match interpreter.interpret patience run sink with
    | none => none
    | some (later,.error cause) => some (later,.error cause)
    | some (later,.ok result) =>
      (interpreter.interpretRuns patience runs later).map fun (last,results) =>
        (last,results.map (result :: ·))

def interpretAll (interpreter : Interpreter) (patience : Nat) (sink : List Emission) :
    Option (List Emission × Except RunError (List RunResult)) :=
  interpreter.interpretRuns patience interpreter.program.runs sink

end Interpreter

end TapeMachine
