import TapeMachine.Token.Lexeme

-- Reading tokens one at a time from program text.
namespace TapeMachine

-- Where reading stands. The offset counts characters from the beginning of the text, and the
-- line start is the offset at which the current row began.
structure Cursor where
  rest : List Char
  offset : Nat
  lineStart : Nat
  row : Nat
  deriving DecidableEq, Repr

namespace Cursor

def start (text : List Char) : Cursor := ⟨text,0,0,0⟩

def position (cursor : Cursor) : Position := ⟨cursor.row,cursor.offset - cursor.lineStart⟩

def exhausted (cursor : Cursor) : Bool := cursor.rest.isEmpty

def next (cursor : Cursor) : Cursor :=
  match cursor.rest with
  | [] => cursor
  | c :: rest =>
    let offset := cursor.offset+1
    if c = '\n' then ⟨rest,offset,offset,cursor.row+1⟩
    else ⟨rest,offset,cursor.lineStart,cursor.row⟩

def pass : Nat → Cursor → Cursor
  | 0,cursor => cursor
  | count+1,cursor => pass count cursor.next

def passWhile (keep : Char → Bool) (cursor : Cursor) : Cursor :=
  cursor.pass (cursor.rest.takeWhile keep).length

theorem next_rest (cursor : Cursor) : cursor.next.rest = cursor.rest.drop 1 := by
  unfold next
  split
  · simp [*]
  · split <;> simp [*]

theorem pass_rest (count : Nat) (cursor : Cursor) : (cursor.pass count).rest = cursor.rest.drop count := by
  induction count generalizing cursor with
  | zero => simp [pass]
  | succ count ih => simp [pass,ih,next_rest]

def skipped (cursor : Cursor) : Cursor :=
  let past := cursor.passWhile isHorizontalSpace
  if ['/','/'].isPrefixOf past.rest then past.passWhile (· ≠ '\n') else past

-- The next token, and the cursor behind it. At the end of the text it is the end mark,
-- however often it is asked for.
def token (cursor : Cursor) : Token × Cursor :=
  let here := cursor.skipped
  let lexeme := Lexeme.read here.rest
  (⟨lexeme.kind,String.ofList lexeme.text,here.position⟩,here.pass lexeme.width)

theorem skipped_length_le (cursor : Cursor) : cursor.skipped.rest.length ≤ cursor.rest.length := by
  unfold skipped passWhile
  simp only
  split <;> simp only [pass_rest,List.length_drop] <;> omega

theorem token_shorter {cursor : Cursor} (more : cursor.token.1.kind ≠ .eof) :
    cursor.token.2.rest.length < cursor.rest.length := by
  have left : cursor.skipped.rest ≠ [] := by
    intro ended
    exact more ((Lexeme.read_eq_eof_iff _).mpr ended)
  have width := Lexeme.read_width_pos left
  have skipped := skipped_length_le cursor
  have some := List.length_pos_iff.mpr left
  simp only [token,pass_rest,List.length_drop]
  omega

def tokens (cursor : Cursor) : List Token × Cursor :=
  let read := cursor.token
  if read.1.kind = .eof then ([],read.2)
  else
    let (later,last) := read.2.tokens
    (read.1 :: later,last)
termination_by cursor.rest.length
decreasing_by exact token_shorter (by assumption)

end Cursor

end TapeMachine
