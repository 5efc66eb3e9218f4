import TapeMachine.Token

-- The spellings of tokens, told apart by how a text begins.
namespace TapeMachine

def isHorizontalSpace (c : Char) : Bool := c ∈ ['\t','\x0c','\r',' ']

def isSymbolChar (c : Char) : Bool :=
  !(isHorizontalSpace c || c ∈ ['\n','\'','-','<','[',']'])

structure Lexeme where
  kind : TokenKind
  text : List Char
  width : Nat

namespace Lexeme

def word (kind : TokenKind) (text : List Char) : Lexeme := ⟨kind,text,text.length⟩

def bodyChar (c : Char) : Bool := !(c == '\'' || c == '\n')

-- A quotation ends with its line at the latest. Its closing mark counts for its width only.
def quotation (afterMark : List Char) : Lexeme :=
  let body := afterMark.takeWhile bodyChar
  if (afterMark.drop body.length).head? = some '\'' then ⟨.symbol,body,body.length+2⟩
  else ⟨.unclosed,body,body.length+1⟩

def read : List Char → Lexeme
  | [] => ⟨.eof,[],0⟩
  | '\'' :: rest => quotation rest
  | '#' :: rest => word .command ('#' :: rest.takeWhile isSymbolChar)
  | '-' :: '>' :: _ => word .rightArrow ['-','>']
  | '<' :: '-' :: _ => word .leftArrow ['<','-']
  | '[' :: _ => word .bra ['[']
  | ']' :: _ => word .ket [']']
  | '\n' :: _ => word .newLine ['\n']
  | c :: rest =>
    if isSymbolChar c then word .symbol (c :: rest.takeWhile isSymbolChar)
    else word .unknown [c]

theorem read_eq_eof_iff (text : List Char) : (read text).kind = .eof ↔ text = [] := by
  unfold read
  split <;> simp [word,quotation] <;> split <;> simp

theorem read_width_pos {text : List Char} (more : text ≠ []) : 0 < (read text).width := by
  unfold read
  split <;> simp_all [word,quotation] <;> split <;> simp

end Lexeme

end TapeMachine
