import TapeMachine.Program

-- Program text is a sequence of statements, one a line.
namespace TapeMachine

inductive Statement where
  | blank
  | rule (rule : Rule)
  | run (run : Run)
  | halt (states : List String)
  deriving DecidableEq, Repr

namespace Statement

def rule? : Statement → Option Rule
  | rule r => some r
  | _ => none

def run? : Statement → Option Run
  | run r => some r
  | _ => none

def halt? : Statement → Option (List String)
  | halt states => some states
  | _ => none

end Statement

-- Rules and runs stand in the order of their statements; of the halt statements only the
-- last one counts.
def Program.ofStatements (statements : List Statement) : Program :=
  .of (statements.filterMap Statement.rule?) (statements.filterMap Statement.run?)
    ((statements.filterMap Statement.halt?).getLastD [])

end TapeMachine
