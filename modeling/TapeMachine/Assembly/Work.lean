import TapeMachine.Assembly.Compilation
import TapeMachine.Interpreter

-- Work on a listing, one step after another. What the steps have done stays done when a later
-- one fails.
namespace TapeMachine.Assembly

abbrev Work := ExceptT CompileError (StateM Listing)

namespace Work

def on (work : Work α) (listing : Listing) : Except CompileError α × Listing :=
  work.run.run listing

def emit (lines : List Line) : Work Unit := modify (Listing.emit lines)

def judged : Except EmissionError α → Work α
  | .ok value => pure value
  | .error cause => throw (.emission cause)

def add (lines : List Line × Except EmissionError Unit) : Work Unit := do
  emit lines.1
  judged lines.2

def declare (text : String) (name : Option String) : Work String := do
  let (name,after) := (← get).declare text name
  set after
  return name

def declareAll (texts : List (String × Option String)) : Work Unit :=
  texts.forM fun (text,name) => do let _ ← declare text name

def print (text : String) : Work Unit := do
  emit (← judged (printLines text (← get)))

end Work

def Sizes.reserve (sizes : Sizes) : Work Unit :=
  Work.add (writable (bufferLines sizes.tape sizes.printBuffer))

def Sizes.lay (sizes : Sizes) (program : Program) (run : Run) : Work Unit := do
  Work.emit [.elf,.empty,.part ".data" "writeable"]
  Work.declareAll fixedTexts
  Work.declareAll (declaredTexts program run)
  sizes.reserve
  Work.emit [.part ".text" "executable",.exported startLabel,.empty,.mark startLabel,
    .code (.storeByte (.at headLabel) 0)]
  let state ← Work.judged (codePoint run.state)
  Work.emit [.code (.storeByte (.at stateLabel) state)]
  Work.add (tapeLines run.tape)
  Work.emit (printAddressLines tapeLabel (some run.tape.length))
  Work.print "\n"
  Work.emit [.code (.call printerLabel)]
  Work.emit (printAddressLines bufferLabel none)
  Work.print "\n"
  Work.emit (exitLines 0)
  Work.emit (printerLines run.tape.length)

-- Compiling in place of whatever the listing holds. It is given up only for a program that
-- has been accepted.
def Sizes.translate (sizes : Sizes) (program : Program) : Work String := do
  match sizes.accept program with
  | .error refusal => throw refusal.error
  | .ok run =>
    set Listing.blank
    sizes.lay program run
    return (← get).text

def Sizes.deliver (sizes : Sizes) (program : Program) (sink : List Emission) (listing : Listing) :
    Except CompileError Unit × List Emission × Listing :=
  match (sizes.translate program).on listing with
  | (.ok text,after) => (.ok (),sink ++ [.written text,.flushed],after)
  | (.error cause,after) => (.error cause,sink,after)

end TapeMachine.Assembly
