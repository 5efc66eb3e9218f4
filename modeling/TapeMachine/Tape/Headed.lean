import TapeMachine.Program
import TapeMachine.Tape

-- Tapes with a head on them. Every operation takes place at the head and touches no cell that
-- lies farther off, so what a tape was earlier can be kept beside what it has become.
namespace TapeMachine.Tape

-- The cells left of the head, the nearest first, and the cells from the head on. Where there
-- are none of the latter, the head stands behind the last cell.
structure Headed where
  before : List String
  onward : List String
  filler : String
  deriving DecidableEq, Repr

namespace Headed

def place (headed : Headed) : Nat := headed.before.length

def cells (headed : Headed) : List String := headed.before.reverseAux headed.onward
def tape (headed : Headed) : Tape := ⟨headed.cells,headed.filler⟩

def of (cells : List String) : Except TapeError Headed :=
  match Tape.of cells with
  | .ok tape => .ok ⟨[],tape.cells,tape.filler⟩
  | .error cause => .error cause

def read : Headed → Except TapeError String
  | ⟨_,symbol :: _,_⟩ => .ok symbol
  | ⟨_,[],_⟩ => .error .outside

def write (symbol : String) : Headed → Except TapeError Headed
  | ⟨before,_ :: after,filler⟩ => .ok ⟨before,symbol :: after,filler⟩
  | ⟨_,[],_⟩ => .error .outside

def reach : Headed → Headed
  | ⟨before,[],filler⟩ => ⟨before,[filler],filler⟩
  | headed => headed

def canMove : Direction → Headed → Bool
  | .left,⟨[],_,_⟩ => false
  | _,_ => true

def move : Direction → Headed → Headed
  | .left,⟨cell :: before,onward,filler⟩ => ⟨before,cell :: onward,filler⟩
  | .right,⟨before,cell :: onward,filler⟩ => ⟨cell :: before,onward,filler⟩
  | _,headed => headed

theorem cells_eq (headed : Headed) : headed.cells = headed.before.reverse ++ headed.onward := by
  simp [cells, List.reverseAux_eq]

theorem place?_place (headed : Headed) :
    headed.tape.place? headed.place = if headed.onward = [] then none else some headed.place := by
  obtain ⟨before,onward,filler⟩ := headed
  have counted : ¬ (before.length : Int) < 0 := by omega
  cases onward with
  | nil => simp [place?, tape, cells_eq, place, counted]
  | cons cell rest =>
    have inside : (before.length : Int) < before.length + (rest.length + 1) := by omega
    simp [place?, tape, cells_eq, place, counted, inside]

theorem read_eq (headed : Headed) : headed.read = headed.tape.read headed.place := by
  unfold Tape.read
  rw [place?_place]
  obtain ⟨before,onward,filler⟩ := headed
  cases onward <;> simp [read, tape, cells_eq, place]

theorem write_eq (headed : Headed) (symbol : String) :
    (headed.write symbol).map tape = headed.tape.write headed.place symbol := by
  unfold Tape.write
  rw [place?_place]
  obtain ⟨before,onward,filler⟩ := headed
  cases onward <;> simp [write, tape, cells_eq, place, Except.map]

theorem reach_eq (headed : Headed) : headed.reach.tape = headed.tape.reach headed.place := by
  obtain ⟨before,onward,filler⟩ := headed
  cases onward with
  | nil => simp [reach, Tape.reach, tape, cells_eq, place]
  | cons cell rest =>
    have inside : ¬ (before.length : Int) + (rest.length + 1) ≤ before.length := by omega
    simp [reach, Tape.reach, tape, cells_eq, place, inside]

theorem cells_move (direction : Direction) (headed : Headed) :
    (headed.move direction).cells = headed.cells := by
  obtain ⟨before,onward,filler⟩ := headed
  cases direction <;> cases before <;> cases onward <;> simp [move, cells_eq]

end Headed

end TapeMachine.Tape
