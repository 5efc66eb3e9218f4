import TapeMachine.Token.Cursor
import TapeMachine.Program.Statement

-- Reading statements from tokens, with one token of foresight and without recovery.
namespace TapeMachine

inductive ParseError where
  | unexpected (expected : List TokenKind) (got : Token)
  | unknownCommand (token : Token)
  deriving DecidableEq, Repr

namespace ParseError

def token : ParseError → Token
  | unexpected _ got => got
  | unknownCommand token => token

def message (file : String) (cause : ParseError) : String :=
  let place := cause.token.position.inFile file
  match cause with
  | unexpected expected got =>
    let wanted := " or ".intercalate (expected.map TokenKind.label)
    s!"{place}: Expected {wanted} but got {got.describe}"
  | unknownCommand token =>
    s!"{place}: Unknown command {Text.quoted token.text}, expected #run or #halt"

end ParseError

structure Parser where
  cursor : Cursor
  accepted : List Token

-- A failing parse keeps its place, so that another one can go on from there.
abbrev Parses := EStateM ParseError Parser

namespace Parser

def start (text : List Char) : Parser := ⟨.start text,[]⟩

def peek (parser : Parser) : Token := parser.cursor.token.1

def skip (parser : Parser) : Parser := { parser with cursor := parser.cursor.token.2 }

def expect (kinds : List TokenKind) : Parses Token := fun parser =>
  let (token,cursor) := parser.cursor.token
  if token.kind ∈ kinds then .ok token ⟨cursor,token :: parser.accepted⟩
  else .error (.unexpected kinds token) ⟨cursor,parser.accepted⟩

def left (parser : Parser) : Nat := parser.cursor.rest.length

theorem expect_left_lt {kinds : List TokenKind} {parser after : Parser} {token : Token}
    (found : expect kinds parser = .ok token after) (more : token.kind ≠ .eof) :
    after.left < parser.left := by
  unfold expect at found
  split at found
  rename_i token' cursor read
  split at found
  · cases found
    have shorter : parser.cursor.token.2.rest.length < parser.left :=
      Cursor.token_shorter (by rw [read]; exact more)
    simpa [left,read] using shorter
  · cases found

def symbols (expected : List TokenKind) (parser : Parser) :
    EStateM.Result ParseError Parser (List String) :=
  match _ : expect expected parser with
  | .error cause after => .error cause after
  | .ok token after =>
    if token.kind = .symbol then
      match symbols expected after with
      | .error cause last => .error cause last
      | .ok texts last => .ok (token.text :: texts) last
    else .ok [] after
termination_by parser.left
decreasing_by exact expect_left_lt (by assumption) (by simp [*])

def rule : Parses Rule := do
  let state ← expect [.symbol]
  let read ← expect [.symbol]
  let write ← expect [.symbol]
  let arrow ← expect [.leftArrow,.rightArrow]
  let next ← expect [.symbol]
  let _ ← expect [.newLine]
  let direction := if arrow.kind = .leftArrow then .left else .right
  return ⟨state.text,read.text,write.text,direction,next.text⟩

def run : Parses Run := do
  let _ ← expect [.command]
  let _ ← expect [.bra]
  let tape ← symbols [.symbol,.ket]
  let state ← expect [.symbol]
  let _ ← expect [.newLine]
  return ⟨tape,state.text⟩

def haltStates : Parses (List String) := do
  let _ ← expect [.command]
  symbols [.newLine,.symbol]

-- What follows is chosen by the token ahead. At the end there is no statement, and a token
-- that begins none stays where it is.
def statement? : Parses (Option Statement) := fun parser =>
  let ahead := parser.peek
  match ahead.kind with
  | .eof => .ok none parser
  | .symbol => ((fun rule => some (.rule rule)) <$> rule) parser
  | .newLine => .ok (some .blank) parser.skip
  | .command =>
    if ahead.text = "#run" then ((fun run => some (.run run)) <$> run) parser
    else if ahead.text = "#halt" then ((fun states => some (.halt states)) <$> haltStates) parser
    else .error (.unknownCommand ahead) parser
  | _ => .error (.unexpected [.symbol,.command] ahead) parser

def finish (parse : Parses α) (parser : Parser) : Parser :=
  match parse parser with
  | .ok _ after => after
  | .error _ after => after

def Shrinks (parse : Parses α) : Prop := ∀ parser, (finish parse parser).left ≤ parser.left

theorem finish_bind_le {parse : Parses α} {next : α → Parses β} (later : ∀ a, Shrinks (next a))
    (parser : Parser) : (finish (parse >>= next) parser).left ≤ (finish parse parser).left := by
  show (finish (EStateM.bind parse next) parser).left ≤ _
  unfold finish EStateM.bind
  cases parse parser with
  | ok a after => exact later a after
  | error cause after => exact Nat.le_refl _

theorem Shrinks.pure (a : α) : Shrinks (Pure.pure a) := fun _ => Nat.le_refl _

theorem Shrinks.bind {parse : Parses α} {next : α → Parses β} (first : Shrinks parse)
    (later : ∀ a, Shrinks (next a)) : Shrinks (parse >>= next) :=
  fun parser => Nat.le_trans (finish_bind_le later parser) (first parser)

theorem token_left_le (cursor : Cursor) : cursor.token.2.rest.length ≤ cursor.rest.length := by
  simp only [Cursor.token,Cursor.pass_rest,List.length_drop]
  exact Nat.le_trans (Nat.sub_le _ _) (Cursor.skipped_length_le _)

theorem finish_expect (kinds : List TokenKind) (parser : Parser) :
    (finish (expect kinds) parser).cursor = parser.cursor.token.2 := by
  unfold finish expect
  simp only
  split
  · rename_i found
    split at found <;> cases found
    rfl
  · rename_i found
    split at found <;> cases found
    rfl

theorem expect_shrinks (kinds : List TokenKind) : Shrinks (expect kinds) := by
  intro parser
  rw [left,finish_expect]
  exact token_left_le _

theorem symbols_shrinks (expected : List TokenKind) : Shrinks (symbols expected) := by
  intro parser
  unfold finish
  fun_induction symbols expected parser with
  | case1 parser cause after found =>
    have taken := expect_shrinks expected parser
    simpa [finish,found] using taken
  | case2 parser token after found symbol cause last read ih =>
    have taken := expect_shrinks expected parser
    simp only [finish,found] at taken
    simp only [read] at ih
    exact Nat.le_trans ih taken
  | case3 parser token after found symbol texts last read ih =>
    have taken := expect_shrinks expected parser
    simp only [finish,found] at taken
    simp only [read] at ih
    exact Nat.le_trans ih taken
  | case4 parser token after found =>
    have taken := expect_shrinks expected parser
    simpa [finish,found] using taken

-- A parse that begins by taking a token gets ahead unless the text has ended.
theorem finish_expect_bind_lt {kinds : List TokenKind} {next : Token → Parses α}
    (later : ∀ token, Shrinks (next token)) {parser : Parser} (more : parser.peek.kind ≠ .eof) :
    (finish (expect kinds >>= next) parser).left < parser.left := by
  refine Nat.lt_of_le_of_lt (finish_bind_le later parser) ?_
  rw [left,finish_expect]
  exact Cursor.token_shorter more

theorem rule_shorter {parser : Parser} (more : parser.peek.kind ≠ .eof) :
    (finish rule parser).left < parser.left := by
  refine finish_expect_bind_lt (fun _ => ?_) more
  iterate 5 refine (expect_shrinks _).bind fun _ => ?_
  exact .pure _

theorem run_shorter {parser : Parser} (more : parser.peek.kind ≠ .eof) :
    (finish run parser).left < parser.left := by
  refine finish_expect_bind_lt (fun _ => ?_) more
  refine (expect_shrinks _).bind fun _ => (symbols_shrinks _).bind fun _ => ?_
  iterate 2 refine (expect_shrinks _).bind fun _ => ?_
  exact .pure _

theorem haltStates_shorter {parser : Parser} (more : parser.peek.kind ≠ .eof) :
    (finish haltStates parser).left < parser.left :=
  finish_expect_bind_lt (fun _ => symbols_shrinks _) more

theorem finish_map (f : α → β) (parse : Parses α) (parser : Parser) :
    finish (f <$> parse) parser = finish parse parser := by
  show finish (EStateM.map f parse) parser = _
  unfold finish EStateM.map
  cases parse parser <;> rfl

theorem map_shorter {f : α → β} {parse : Parses α} {parser after : Parser} {b : β}
    (read : (f <$> parse) parser = .ok b after) (shorter : (finish parse parser).left < parser.left) :
    after.left < parser.left := by
  rw [← finish_map f] at shorter
  simpa [finish,read] using shorter

theorem statement?_shorter {parser after : Parser} {statement : Statement}
    (read : statement? parser = .ok (some statement) after) : after.left < parser.left := by
  have more : parser.peek.kind ≠ .eof := by
    intro eof
    simp [statement?,eof] at read
  unfold statement? at read
  simp only at read
  split at read
  · cases read
  · exact map_shorter read (rule_shorter more)
  · cases read
    exact Cursor.token_shorter more
  · split at read
    · exact map_shorter read (run_shorter more)
    · split at read
      · exact map_shorter read (haltStates_shorter more)
      · cases read
  · cases read

def statements (parser : Parser) : EStateM.Result ParseError Parser (List Statement) :=
  match _ : statement? parser with
  | .error cause after => .error cause after
  | .ok none after => .ok [] after
  | .ok (some statement) after =>
    match statements after with
    | .error cause last => .error cause last
    | .ok later last => .ok (statement :: later) last
termination_by parser.left
decreasing_by exact statement?_shorter (by assumption)

def program : Parses Program := Program.ofStatements <$> statements

end Parser

def parse (text : List Char) : Except ParseError Program :=
  match Parser.program (.start text) with
  | .ok program _ => .ok program
  | .error cause _ => .error cause

end TapeMachine
