import TapeMachine.Assembly.Listing
import TapeMachine.Program
import TapeMachine.Log

-- Programs as assembly that prints the configuration their run begins with.
namespace TapeMachine.Assembly

structure Sizes where
  tape : Int := 256
  printBuffer : Int := 256
  deriving DecidableEq, Repr

inductive Refusal where
  | runCount (count : Nat)
  | wideSymbol (symbol : String)
  | noTape
  | longTape (cells : Nat) (size : Int)
  | smallBuffer (cells : Nat) (needed size : Int)
  deriving DecidableEq, Repr

def Refusal.message : Refusal → String
  | runCount count => s!"the asm target supports exactly one #run directive, got {count}"
  | wideSymbol symbol =>
    s!"only one char symbols are supported for the asm target, got {Text.quoted symbol}"
  | noTape => "tape cannot be empty"
  | longTape cells size => s!"tape of {cells} cells does not fit the {size} cell tape buffer"
  | smallBuffer cells needed size =>
    s!"tape of {cells} cells needs a {needed} byte print buffer, only {size} available"

def Refusal.numbers : Refusal → List Int
  | longTape _ size => [size]
  | smallBuffer _ _ size => [size]
  | _ => []

-- Bytes that drawing the tape takes when the head has gone one cell past its end, the
-- farthest it can: brackets, cells and line end, then twice the head's place and two more
-- blanks, then the caret and line end.
def drawnLength (cells : Int) : Int := (2*cells+4) + (2*cells+2) + 2

inductive CompileError where
  | refused (refusal : Refusal)
  | emission (cause : EmissionError)
  deriving DecidableEq, Repr

-- Nothing can be said about a refusal whose message cannot be written.
def Refusal.error (refusal : Refusal) : CompileError :=
  if refusal.numbers.all Text.isWritable then .refused refusal else .emission .longNumber

def Sizes.accept (sizes : Sizes) (program : Program) : Except Refusal Run :=
  match program.runs with
  | [run] =>
    let cells := run.tape.length
    match program.occurrences.find? fun symbol => (textBytes symbol).length ≠ 1 with
    | some symbol => .error (.wideSymbol symbol)
    | none =>
      if cells = 0 then .error .noTape
      else if sizes.tape < cells then .error (.longTape cells sizes.tape)
      else if sizes.printBuffer < drawnLength cells then
        .error (.smallBuffer cells (drawnLength cells) sizes.printBuffer)
      else .ok run
  | runs => .error (.runCount runs.length)

def fixedTexts : List (String × Option String) :=
  [("[",some "bra"),("]",some "ket"),("->",some "rightarrow"),("<-",some "leftarrow"),
    ("^",some "caret"),(" ",some "space"),("\n",some "nl"),(" -- HALT -- ",some "halted")]

def declaredTexts (program : Program) (run : Run) : List (String × Option String) :=
  (program.rules.flatMap (fun rule => [rule.state,rule.next,rule.read,rule.write]) ++
    run.state :: run.tape).map (·,none)

def Listing.data (program : Program) (run : Run) : Listing :=
  ((Listing.blank.emit [.elf,.empty,.part ".data" "writeable"]).declareAll fixedTexts).declareAll
    (declaredTexts program run)

def programLines (run : Run) (data : Listing) : Except EmissionError (List Line) := do
  let state ← codePoint run.state
  let (cells,stored) := tapeLines run.tape
  stored
  let lineEnd ← printLines "\n" data
  return [.part ".text" "executable",.exported startLabel,.empty,.mark startLabel,
      .code (.storeByte (.at headLabel) 0),.code (.storeByte (.at stateLabel) state)] ++
    cells ++ printAddressLines tapeLabel (some run.tape.length) ++ lineEnd ++
    [.code (.call printerLabel)] ++ printAddressLines bufferLabel none ++ lineEnd ++
    exitLines 0 ++ printerLines run.tape.length

def Sizes.compile (sizes : Sizes) (program : Program) : Except CompileError Listing :=
  match sizes.accept program with
  | .error refusal => .error refusal.error
  | .ok run =>
    let data := Listing.data program run
    let (buffers,reserved) := writable (bufferLines sizes.tape sizes.printBuffer)
    match reserved,programLines run data with
    | .error cause,_ => .error (.emission cause)
    | _,.error cause => .error (.emission cause)
    | .ok (),.ok lines => .ok (data.emit (buffers ++ lines))

def logOrigin : String := "turir.compiler"

def Listing.declaredRecord (listing : Listing) : Log.Record :=
  ⟨.debug,logOrigin,"symbol table: " ++ listing.symbolTable⟩

def Listing.log (run : Run) (listing : Listing) : List Log.Record :=
  [listing.declaredRecord,
    ⟨.info,logOrigin,"compiled " ++ run.text ++ s!" into {listing.emitted.length} line(s)"⟩]

end TapeMachine.Assembly
