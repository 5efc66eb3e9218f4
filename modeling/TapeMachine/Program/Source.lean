import TapeMachine.Program
import TapeMachine.Token.Lexeme

-- Writing programs as text that reads back as the same program.
namespace TapeMachine

structure Unwritable where
  symbol : String
  deriving DecidableEq, Repr

def Unwritable.message (cause : Unwritable) : String :=
  s!"symbol {Text.quoted cause.symbol} cannot be written as turir source"

-- A bare symbol at whose beginning neither a command nor a comment would be read.
def isBare (symbol : List Char) : Bool :=
  !(symbol.isEmpty || ['#'].isPrefixOf symbol || ['/','/'].isPrefixOf symbol) &&
    symbol.all isSymbolChar

def symbolSource (symbol : String) : Except Unwritable String :=
  if isBare symbol.toList then .ok symbol
  else if '\'' ∈ symbol.toList ∨ '\n' ∈ symbol.toList then .error ⟨symbol⟩
  else .ok s!"'{symbol}'"

def Rule.source (rule : Rule) : Except Unwritable String := do
  let state ← symbolSource rule.state
  let read ← symbolSource rule.read
  let write ← symbolSource rule.write
  let next ← symbolSource rule.next
  return s!"{state} {read} {write} {rule.direction.text} {next}"

def Run.source (run : Run) : Except Unwritable String := do
  let cells ← run.tape.mapM symbolSource
  let state ← symbolSource run.state
  return s!"#run [ {spaced cells} ] {state}"

def Program.source (program : Program) : Except Unwritable String := do
  let rules ← program.rules.mapM Rule.source
  let runs ← program.runs.mapM Run.source
  let haltStates ← program.haltStates.mapM symbolSource
  let lines := rules ++ runs ++ [s!"#halt {spaced haltStates}"]
  return String.join (lines.map (· ++ "\n"))

end TapeMachine
