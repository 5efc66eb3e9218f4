import TapeMachine.Text.Quoted

-- The words and marks that program text consists of.
namespace TapeMachine

structure Position where
  row : Nat
  column : Nat
  deriving DecidableEq, Repr

def Position.inFile (file : String) (position : Position) : String :=
  s!"{file}:{position.row+1}:{position.column+1}"

inductive TokenKind where
  | symbol | leftArrow | rightArrow | command | bra | ket | newLine
  | eof | unknown | unclosed
  deriving DecidableEq, Repr

namespace TokenKind

def label : TokenKind → String
  | symbol => "Symbol"
  | leftArrow => "<-"
  | rightArrow => "->"
  | command => "Cmd"
  | bra => "["
  | ket => "]"
  | newLine => "new line"
  | eof => "EOF"
  | unknown => "unknown token"
  | unclosed => "unclosed string"

def isMarker : TokenKind → Bool
  | eof | unknown | unclosed => true
  | _ => false

end TokenKind

structure Token where
  kind : TokenKind
  text : String
  position : Position
  deriving DecidableEq, Repr

-- The token as diagnostics name it. Its text adds nothing where the kind says it all, and an
-- unclosed quotation is named without what it holds.
def Token.describe (token : Token) : String :=
  match token.kind with
  | .eof | .unclosed | .newLine => token.kind.label
  | kind => s!"{kind.label} {Text.quoted token.text}"

end TapeMachine
