import TapeMachine.Machine

-- What one step does to a machine, told on the plain list of its cells and the place of its
-- head. Proofs about runs start from here and open neither the head's view of the tape nor
-- the functions of the machine.
namespace TapeMachine

def Direction.beside? : Direction → Nat → Option Nat
  | .left,0 => none
  | .left,place+1 => some place
  | .right,place => some (place+1)

theorem Direction.beside?_le {direction : Direction} {place target : Nat}
    (beside : direction.beside? place = some target) : target ≤ place+1 := by
  cases direction <;> cases place <;> simp [Direction.beside?] at beside <;> omega

namespace Tape.Headed

theorem read_eq_ok_iff (headed : Headed) (symbol : String) :
    headed.read = .ok symbol ↔ headed.cells[headed.place]? = some symbol := by
  obtain ⟨before,onward,filler⟩ := headed
  cases onward <;> simp [read,cells_eq,place]

theorem canMove_eq (direction : Direction) (headed : Headed) :
    headed.canMove direction = (direction.beside? headed.place).isSome := by
  obtain ⟨before,onward,filler⟩ := headed
  cases direction <;> cases before <;> rfl

theorem write_inside {headed : Headed} (inside : headed.place < headed.cells.length)
    (symbol : String) : ∃ written, headed.write symbol = .ok written ∧
      written.place = headed.place ∧ written.filler = headed.filler ∧
      written.cells = headed.cells.set headed.place symbol := by
  obtain ⟨before,onward,filler⟩ := headed
  cases onward with
  | nil => simp [place,cells_eq] at inside
  | cons cell rest => exact ⟨_,rfl,rfl,rfl,by simp [cells_eq,place]⟩

theorem write_outside {headed : Headed} (outside : headed.cells.length ≤ headed.place)
    (symbol : String) : headed.write symbol = .error .outside := by
  obtain ⟨before,onward,filler⟩ := headed
  cases onward with
  | nil => rfl
  | cons cell rest =>
    simp only [place,cells_eq,List.length_append,List.length_reverse,List.length_cons] at outside
    omega

theorem place_move {headed : Headed} (inside : headed.place < headed.cells.length)
    {direction : Direction} {target : Nat} (beside : direction.beside? headed.place = some target) :
    (headed.move direction).place = target := by
  obtain ⟨before,onward,filler⟩ := headed
  cases onward with
  | nil => simp [place,cells_eq] at inside
  | cons cell rest =>
    cases direction <;> cases before <;> simp_all [move,place,Direction.beside?]

theorem filler_move (direction : Direction) (headed : Headed) :
    (headed.move direction).filler = headed.filler := by
  obtain ⟨before,onward,filler⟩ := headed
  cases direction <;> cases before <;> cases onward <;> rfl

theorem place_reach (headed : Headed) : headed.reach.place = headed.place := by
  obtain ⟨before,onward,filler⟩ := headed
  cases onward <;> rfl

theorem filler_reach (headed : Headed) : headed.reach.filler = headed.filler := by
  obtain ⟨before,onward,filler⟩ := headed
  cases onward <;> rfl

theorem cells_reach (headed : Headed) : headed.reach.cells =
    headed.cells ++ if headed.cells.length ≤ headed.place then [headed.filler] else [] := by
  obtain ⟨before,onward,filler⟩ := headed
  cases onward with
  | nil => simp [reach,cells_eq,place]
  | cons cell rest =>
    have inside : ¬ before.length + (rest.length+1) ≤ before.length := by omega
    simp [reach,cells_eq,place,inside]

end Tape.Headed

namespace Machine

-- The machine that a rule makes of another one. The tape grows by its filler when the head has
-- gone behind the last cell, but not when the machine has halted.
structure Applied (program : Program) (rule : Rule) (machine next : Machine) : Prop where
  inside : machine.head < machine.tape.cells.length
  head : rule.direction.beside? machine.head = some next.head
  cells : next.tape.cells = machine.tape.cells.set machine.head rule.write ++
    if program.halts rule.next = false ∧ machine.tape.cells.length ≤ next.head
      then [machine.tape.filler] else []
  filler : next.tape.filler = machine.tape.filler
  state : next.state = rule.next
  steps : next.steps = machine.steps+1
  halted : next.halted = (program.halts rule.next || machine.halted)

theorem apply_left {machine : Machine} {rule : Rule} (program : Program)
    (edge : rule.direction.beside? machine.head = none) :
    machine.apply program rule = .error (.leftOfTape rule.next (machine.steps+1)) := by
  have stays : machine.headed.canMove rule.direction = false := by
    rw [Tape.Headed.canMove_eq]
    exact congrArg Option.isSome edge
  simp [apply,stays]

theorem apply_outside {machine : Machine} {rule : Rule} {target : Nat} (program : Program)
    (beside : rule.direction.beside? machine.head = some target)
    (outside : machine.tape.cells.length ≤ machine.head) :
    machine.apply program rule = .error .offTape := by
  have moves : machine.headed.canMove rule.direction = true := by
    rw [Tape.Headed.canMove_eq]
    exact congrArg Option.isSome beside
  simp [apply,moves,Tape.Headed.write_outside outside]

theorem apply_inside {machine : Machine} {rule : Rule} {target : Nat} (program : Program)
    (beside : rule.direction.beside? machine.head = some target)
    (inside : machine.head < machine.tape.cells.length) :
    ∃ next, machine.apply program rule = .ok next ∧ Applied program rule machine next := by
  have moves : machine.headed.canMove rule.direction = true := by
    rw [Tape.Headed.canMove_eq]
    exact congrArg Option.isSome beside
  obtain ⟨written,wrote,place,filler,cells⟩ := Tape.Headed.write_inside inside rule.write
  have stillInside : written.place < written.cells.length := by
    rw [place,cells,List.length_set]
    exact inside
  have moved : (written.move rule.direction).place = target :=
    Tape.Headed.place_move stillInside (by rw [place]; exact beside)
  have length : (written.move rule.direction).cells.length = machine.tape.cells.length := by
    rw [Tape.Headed.cells_move,cells,List.length_set]
    rfl
  cases halts : program.halts rule.next with
  | true =>
    refine ⟨⟨written.move rule.direction,rule.next,machine.steps+1,true⟩,?_,inside,?_,?_,?_,rfl,rfl,?_⟩
    · simp [apply,moves,wrote,halts]
    · rw [beside]
      exact congrArg some moved.symm
    · show (written.move rule.direction).cells = _
      rw [Tape.Headed.cells_move,cells]
      simp only [halts,Bool.true_eq_false,false_and,if_false,List.append_nil]
      rfl
    · exact (Tape.Headed.filler_move _ _).trans filler
    · simp [halts]
  | false =>
    refine ⟨⟨(written.move rule.direction).reach,rule.next,machine.steps+1,machine.halted⟩,
      ?_,inside,?_,?_,?_,rfl,rfl,?_⟩
    · simp [apply,moves,wrote,halts]
    · rw [beside]
      exact congrArg some ((Tape.Headed.place_reach _).trans moved).symm
    · show (written.move rule.direction).reach.cells = _
      rw [Tape.Headed.cells_reach,length,Tape.Headed.filler_move,Tape.Headed.cells_move,cells,filler]
      simp only [halts,true_and,head,Tape.Headed.place_reach]
      rfl
    · exact (Tape.Headed.filler_reach _).trans ((Tape.Headed.filler_move _ _).trans filler)
    · simp [halts]

theorem applied_of {program : Program} {rule : Rule} {machine next : Machine}
    (done : machine.apply program rule = .ok next) : Applied program rule machine next := by
  cases target : rule.direction.beside? machine.head with
  | none =>
    rw [apply_left program target] at done
    cases done
  | some place =>
    by_cases inside : machine.head < machine.tape.cells.length
    · obtain ⟨after,same,applied⟩ := apply_inside program target inside
      rw [same] at done
      cases done
      exact applied
    · rw [apply_outside program target (Nat.le_of_not_lt inside)] at done
      cases done

theorem Applied.stands {program : Program} {rule : Rule} {machine next : Machine}
    (applied : Applied program rule machine next) :
    next.head ≤ next.tape.cells.length ∧
      (program.halts rule.next = false → next.head < next.tape.cells.length) := by
  have near : next.head ≤ machine.head+1 := Direction.beside?_le applied.head
  have inside := applied.inside
  rw [applied.cells,List.length_append,List.length_set]
  cases halts : program.halts rule.next with
  | true =>
    refine ⟨by omega,?_⟩
    intro runs
    cases runs
  | false =>
    by_cases grows : machine.tape.cells.length ≤ next.head
    · simp [grows]
      omega
    · simp [grows]
      omega

theorem step_inside {machine : Machine} (program : Program)
    (inside : machine.head < machine.tape.cells.length) :
    machine.step program =
      match program.rule? machine.state machine.tape.cells[machine.head] with
      | none => .error (.undefined machine.state machine.tape.cells[machine.head])
      | some rule => (machine.apply program rule).map (rule,·) := by
  have read : machine.headed.read = .ok machine.tape.cells[machine.head] := by
    rw [Tape.Headed.read_eq_ok_iff]
    exact List.getElem?_eq_getElem inside
  simp only [step,lookup,symbol,read]
  cases program.rule? machine.state machine.tape.cells[machine.head] with
  | none => rfl
  | some rule =>
    simp only
    cases machine.apply program rule <;> rfl

end Machine

end TapeMachine
