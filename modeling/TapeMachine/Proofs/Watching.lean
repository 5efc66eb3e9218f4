import TapeMachine.Proofs.Phrase

-- Parses that are watched while they come by their tokens. What a parse does is written down once,
-- for any means of coming by tokens: with its own means it is the parse, with means that keep a
-- record it shows every token that it looks at or takes. Where a parse goes round in a loop it is
-- watched for so many rounds only, so that one that went on for ever would be seen not to end.
namespace TapeMachine.Parser

structure Means (m : Type → Type) where
  look : m Token
  skip : m Unit
  expect : List TokenKind → m Token
  refuse {α : Type} : ParseError → m α

section

variable {m : Type → Type} [Monad m] (means : Means m)

def ruleBy : m Rule := do
  let state ← means.expect [.symbol]
  let read ← means.expect [.symbol]
  let write ← means.expect [.symbol]
  let arrow ← means.expect [.leftArrow,.rightArrow]
  let next ← means.expect [.symbol]
  let _ ← means.expect [.newLine]
  let direction := if arrow.kind = .leftArrow then .left else .right
  return ⟨state.text,read.text,write.text,direction,next.text⟩

def symbolsBy (expected : List TokenKind) (again : m (List String)) : m (List String) := do
  let token ← means.expect expected
  if token.kind = .symbol then
    let texts ← again
    return token.text :: texts
  else return []

def runBy (symbols : List TokenKind → m (List String)) : m Run := do
  let _ ← means.expect [.command]
  let _ ← means.expect [.bra]
  let tape ← symbols [.symbol,.ket]
  let state ← means.expect [.symbol]
  let _ ← means.expect [.newLine]
  return ⟨tape,state.text⟩

def haltStatesBy (symbols : List TokenKind → m (List String)) : m (List String) := do
  let _ ← means.expect [.command]
  symbols [.newLine,.symbol]

def statementBy (symbols : List TokenKind → m (List String)) : m (Option Statement) := do
  let ahead ← means.look
  match ahead.kind with
  | .eof => return none
  | .symbol =>
    let rule ← ruleBy means
    return some (.rule rule)
  | .newLine =>
    means.skip
    return some .blank
  | .command =>
    if ahead.text = "#run" then
      let run ← runBy means symbols
      return some (.run run)
    else if ahead.text = "#halt" then
      let states ← haltStatesBy means symbols
      return some (.halt states)
    else means.refuse (.unknownCommand ahead)
  | _ => means.refuse (.unexpected [.symbol,.command] ahead)

def statementsBy (statement? : m (Option Statement)) (again : m (List Statement)) :
    m (List Statement) := do
  match ← statement? with
  | none => return []
  | some statement =>
    let later ← again
    return statement :: later

end

def own : Means Parses where
  look := fun parser => .ok parser.peek parser
  skip := fun parser => .ok () parser.skip
  expect := expect
  refuse := fun cause parser => .error cause parser

theorem bind_apply {ε σ : Type} (first : EStateM ε σ α) (next : α → EStateM ε σ β) (state : σ) :
    (first >>= next) state = match first state with
      | .ok a after => next a after
      | .error cause after => .error cause after := by
  show EStateM.bind first next state = _
  unfold EStateM.bind
  cases first state <;> rfl

theorem symbols_eq (expected : List TokenKind) :
    symbols expected = symbolsBy own expected (symbols expected) := by
  funext parser
  refine .trans ?_ (bind_apply ..).symm
  rw [symbols]
  dsimp only [own]
  cases expect expected parser with
  | error cause after => rfl
  | ok token after =>
    dsimp only
    split
    · refine .trans ?_ (bind_apply ..).symm
      cases symbols expected after <;> rfl
    · rfl

theorem statement?_eq : statement? = statementBy own symbols := by
  funext parser
  refine .trans ?_ (bind_apply ..).symm
  unfold statement?
  dsimp only [own]
  cases parser.peek.kind with
  | command =>
    dsimp only
    split
    · rfl
    · exact (apply_ite (fun parse : Parses (Option Statement) => parse parser) _ _ _).symm
  | _ => rfl

theorem statements_eq : statements = statementsBy statement? statements := by
  funext parser
  refine .trans ?_ (bind_apply ..).symm
  rw [statements]
  cases statement? parser with
  | error cause after => rfl
  | ok read after =>
    cases read with
    | none => rfl
    | some statement =>
      refine .trans ?_ (bind_apply ..).symm
      dsimp only
      cases statements after <;> rfl

inductive Access where
  | look (token : Token)
  | take (token : Token)
  deriving DecidableEq, Repr

namespace Access

def token : Access → Token
  | look token => token
  | take token => token

def looked? : Access → Option Token
  | look token => some token
  | take _ => none

def taken? : Access → Option Token
  | look _ => none
  | take token => some token

end Access

structure Watched where
  parser : Parser
  accesses : List Access

inductive Halt where
  | failed (cause : ParseError)
  | unended

abbrev Watches := EStateM Halt Watched

def watching : Means Watches where
  look := fun watched =>
    let token := watched.parser.peek
    .ok token ⟨watched.parser,watched.accesses ++ [.look token]⟩
  skip := fun watched => .ok () ⟨watched.parser.skip,watched.accesses ++ [.take watched.parser.peek]⟩
  expect := fun kinds watched =>
    let accesses := watched.accesses ++ [.take watched.parser.peek]
    match expect kinds watched.parser with
    | .ok token after => .ok token ⟨after,accesses⟩
    | .error cause after => .error (.failed cause) ⟨after,accesses⟩
  refuse := fun cause watched => .error (.failed cause) watched

namespace Watched

def rule : Watches Rule := ruleBy watching

def symbols (expected : List TokenKind) : Nat → Watches (List String)
  | 0 => throw .unended
  | rounds+1 => symbolsBy watching expected (symbols expected rounds)

def run (rounds : Nat) : Watches Run := runBy watching (symbols · rounds)

def haltStates (rounds : Nat) : Watches (List String) := haltStatesBy watching (symbols · rounds)

def statement? (rounds : Nat) : Watches (Option Statement) := statementBy watching (symbols · rounds)

def statements : Nat → Watches (List Statement)
  | 0 => throw .unended
  | rounds+1 => statementsBy (statement? (rounds+1)) (statements rounds)

def program (rounds : Nat) : Watches Program := Program.ofStatements <$> statements rounds

def told (accesses : List Access) : EStateM.Result ParseError Parser α → EStateM.Result Halt Watched α
  | .ok a after => .ok a ⟨after,accesses⟩
  | .error cause after => .error (.failed cause) ⟨after,accesses⟩

end Watched

example : (match Watched.program 2 ⟨.start ['A',' ','[','\n'],[]⟩ with
      | .ok _ after => after.accesses
      | .error _ after => after.accesses) =
    [.look ⟨.symbol,"A",⟨0,0⟩⟩,.take ⟨.symbol,"A",⟨0,0⟩⟩,.take ⟨.bra,"[",⟨0,2⟩⟩] := by decide

end TapeMachine.Parser
