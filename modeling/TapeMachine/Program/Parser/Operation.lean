import TapeMachine.Program.Parser

-- Parsing by hand: single operations in any order, also behind failures.
namespace TapeMachine.Parser

inductive Operation where
  | peek
  | skip
  | expect (kinds : List TokenKind)
  | rule
  | run
  | haltStates
  | program
  deriving DecidableEq, Repr

inductive Found where
  | token (token : Token)
  | nothing
  | rule (rule : Rule)
  | run (run : Run)
  | haltStates (states : List String)
  | program (program : Program)
  deriving DecidableEq

-- A failing parse has taken what it has taken.
def carryOut (found : α → Found) (parse : Parses α) (parser : Parser) :
    Except ParseError Found × Parser :=
  match parse parser with
  | .ok value after => (.ok (found value),after)
  | .error cause after => (.error cause,after)

def perform : Operation → Parser → Except ParseError Found × Parser
  | .peek,parser => (.ok (.token parser.peek),parser)
  | .skip,parser => (.ok .nothing,parser.skip)
  | .expect kinds,parser => carryOut .token (expect kinds) parser
  | .rule,parser => carryOut .rule rule parser
  | .run,parser => carryOut .run run parser
  | .haltStates,parser => carryOut .haltStates haltStates parser
  | .program,parser => carryOut .program program parser

def performAll : List Operation → Parser → List (Except ParseError Found × Parser)
  | [],_ => []
  | operation :: operations,parser =>
    let outcome := perform operation parser
    outcome :: performAll operations outcome.2

end TapeMachine.Parser
