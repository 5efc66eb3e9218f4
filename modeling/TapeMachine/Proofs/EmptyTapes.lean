import TapeMachine.Proofs.Course

-- Runs in their order, and the empty tapes among them. A machine that has begun on a tape is
-- never short of a cell, so an empty tape is all that a run can fail by unawares.
namespace TapeMachine

open Machine

namespace Machine

theorem step_inside_error {program : Program} {machine : Machine} {cause : MachineError}
    (inside : machine.head < machine.tape.cells.length)
    (failed : machine.step program = .error cause) : cause ≠ .offTape := by
  rw [step_inside program inside] at failed
  split at failed
  · cases failed
    simp
  · rename_i rule _
    cases target : rule.direction.beside? machine.head with
    | none =>
      rw [apply_left program target] at failed
      cases failed
      simp
    | some place =>
      obtain ⟨next,done,_⟩ := apply_inside program target inside
      rw [done] at failed
      cases failed

theorem Ends.error_of_inside {program : Program} {limit : Option Int} {machine : Machine}
    {ending : Ending} (ends : machine.Ends program limit ending)
    (inside : machine.halted = false → machine.head < machine.tape.cells.length) :
    ending.error? ≠ some .noTape ∧ ending.error? ≠ some (.machine .offTape) := by
  constructor
  · cases ends <;> simp [Ending.error?]
  · intro failed
    obtain ⟨running,_,stepped⟩ := ends_failing_iff.mp ⟨ending,ends,failed⟩
    exact step_inside_error (inside running) stepped rfl

end Machine

theorem Ending.error?_eq_none_iff {ending : Ending} :
    ending.error? = none ↔ ∃ machine, ending = .halted machine := by
  cases ending <;> simp [Ending.error?]

namespace Program

def Halts (program : Program) (limit : Option Int) (run : Run) : Prop :=
  ∃ execution last, program.ComesTo limit run execution ∧ execution.ending = .halted last

inductive MeetsEmpty (program : Program) (limit : Option Int) : List Run → Prop where
  | here {run : Run} {runs : List Run} : run.tape = [] → MeetsEmpty program limit (run :: runs)
  | later {run : Run} {runs : List Run} : program.Halts limit run →
      MeetsEmpty program limit runs → MeetsEmpty program limit (run :: runs)

theorem execute_empty (program : Program) (limit : Option Int) (patience : Nat) {run : Run}
    (empty : run.tape = []) : program.execute limit patience run = some ⟨run,[],.noTape⟩ := by
  simp [execute,start,Tape.Headed.of,Tape.of,empty]

theorem execute_filled (program : Program) (most : Int) (patience : Nat) {run : Run}
    (filled : run.tape ≠ []) : ∃ execution,
      program.execute (some most) patience run = some execution ∧
      execution.ending.error? ≠ some .noTape ∧
      execution.ending.error? ≠ some (.machine .offTape) ∧
      (program.Halts (some most) run ↔ execution.ending.error? = none) := by
  obtain ⟨fresh,started⟩ := fresh_of run filled
  obtain ⟨execution,executed⟩ := program.execute_limited started most patience
  obtain ⟨_,last,course,ends,_⟩ := (comesTo_iff started).mp ⟨patience,executed⟩
  obtain ⟨noTape,offTape⟩ := ends.error_of_inside (course.inside fun _ => started.inside filled)
  refine ⟨execution,executed,noTape,offTape,?_⟩
  rw [Ending.error?_eq_none_iff]
  constructor
  · intro halts
    obtain ⟨other,last,comes,halted⟩ := halts
    rw [ComesTo.unique started comes ⟨patience,executed⟩] at halted
    exact ⟨last,halted⟩
  · intro halted
    obtain ⟨last,halted⟩ := halted
    exact ⟨execution,last,⟨patience,executed⟩,halted⟩

-- Under a limit all runs end. The first failure is that of an empty tape just where one is met,
-- and never that of a machine without a cell.
theorem executeAll_failure (program : Program) (most : Int) (patience : Nat) (runs : List Run) :
    ∃ executions, executeAll.go program (some most) patience runs = some executions ∧
      executions.findSome? (·.ending.error?) ≠ some (.machine .offTape) ∧
      (executions.findSome? (·.ending.error?) = some .noTape ↔
        program.MeetsEmpty (some most) runs) := by
  induction runs with
  | nil => exact ⟨[],rfl,by simp,by simp,fun meets => by cases meets⟩
  | cons run runs ih =>
    by_cases empty : run.tape = []
    · refine ⟨[⟨run,[],.noTape⟩],?_,by simp [Ending.error?],by simp [Ending.error?,MeetsEmpty.here empty]⟩
      simp [executeAll.go,execute_empty,empty,Ending.error?]
    · obtain ⟨execution,executed,noTape,offTape,halts⟩ := program.execute_filled most patience empty
      cases failed : execution.ending.error? with
      | some cause =>
        refine ⟨[execution],by simp [executeAll.go,executed,failed],by simpa [failed] using offTape,?_⟩
        constructor
        · intro met
          simp [failed] at met noTape
          exact absurd met noTape
        · intro meets
          cases meets with
          | here empty' => exact absurd empty' empty
          | later halted _ =>
            rw [halts.mp halted] at failed
            cases failed
      | none =>
        obtain ⟨executions,rest,offTape',meets⟩ := ih
        refine ⟨execution :: executions,by simp [executeAll.go,executed,failed,rest],?_,?_⟩
        · simpa [failed] using offTape'
        · rw [List.findSome?_cons,failed,meets]
          constructor
          · exact .later (halts.mpr failed)
          · intro met
            cases met with
            | here empty' => exact absurd empty' empty
            | later _ later => exact later

end Program

end TapeMachine
