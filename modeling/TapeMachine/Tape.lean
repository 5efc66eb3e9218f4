import TapeMachine.Text.Parts

-- Tapes that grow to the right only, by one fixed symbol.
namespace TapeMachine

inductive TapeError where
  | empty
  | outside
  deriving DecidableEq, Repr

def TapeError.message : TapeError → String
  | empty => "tape cannot be empty"
  | outside => "no such cell on the tape"

-- The filler is the last symbol of the tape as it was at the beginning, whatever has been
-- written since.
structure Tape where
  cells : List String
  filler : String
  deriving DecidableEq, Repr

namespace Tape

def of (cells : List String) : Except TapeError Tape :=
  match cells.getLast? with
  | some filler => .ok ⟨cells,filler⟩
  | none => .error .empty

def place? (tape : Tape) (index : Int) : Option Nat :=
  let length : Int := tape.cells.length
  let fromLeft := if index < 0 then index+length else index
  if 0 ≤ fromLeft ∧ fromLeft < length then some fromLeft.toNat else none

def read (tape : Tape) (index : Int) : Except TapeError String :=
  match tape.place? index with
  | some place => .ok (tape.cells.getD place tape.filler)
  | none => .error .outside

def write (tape : Tape) (index : Int) (symbol : String) : Except TapeError Tape :=
  match tape.place? index with
  | some place => .ok { tape with cells := tape.cells.set place symbol }
  | none => .error .outside

def reach (tape : Tape) (index : Int) : Tape :=
  if (tape.cells.length : Int) ≤ index then { tape with cells := tape.cells ++ [tape.filler] }
  else tape

end Tape

-- A tape on one line, and below it a caret at the head's cell, for symbols of one character.
-- Left of the first cell the caret stays under that cell.
def drawTape (cells : List String) (head : Int) : String :=
  let padding := "".pushn ' ' (2*head.toNat)
  let line := " ".intercalate cells
  s!"[ {line} ]\n  {padding}^\n"

theorem toList_blanks (count : Nat) : ("".pushn ' ' count).toList = List.replicate count ' ' :=
  Text.toList_pushn "" ' ' count

end TapeMachine
