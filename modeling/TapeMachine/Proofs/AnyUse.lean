import TapeMachine.Proofs.Course
import TapeMachine.Proofs.Registers

-- Machines under any use: operations in any order, with any rules, behind failures and behind a
-- halt. What is said of indices and of failures is said of the registers.
namespace TapeMachine

namespace Machine

def behind (program : Program) (operations : List Operation) (machine : Machine) : Machine :=
  ((machine.performAll program operations).getLast?.map Prod.snd).getD machine

def Operation.applied? : Operation → Except MachineError Found → Option Rule
  | .step,.ok (.rule rule) => some rule
  | .apply rule,.ok _ => some rule
  | _,_ => none

def appliedRules (program : Program) (operations : List Operation) (machine : Machine) : List Rule :=
  (operations.zip (machine.performAll program operations)).filterMap fun (operation,outcome) =>
    operation.applied? outcome.1

theorem behind_cons (program : Program) (operation : Operation) (operations : List Operation)
    (machine : Machine) : machine.behind program (operation :: operations) =
      (machine.perform program operation).2.behind program operations := by
  simp only [behind,performAll,List.getLast?_cons,Option.map_some,Option.getD_some]
  cases (performAll program operations (machine.perform program operation).2).getLast? <;> rfl

theorem appliedRules_cons (program : Program) (operation : Operation) (operations : List Operation)
    (machine : Machine) : machine.appliedRules program (operation :: operations) =
      (operation.applied? (machine.perform program operation).1).toList ++
        (machine.perform program operation).2.appliedRules program operations := by
  simp only [appliedRules,performAll,List.zip_cons_cons,List.filterMap_cons]
  cases operation.applied? (machine.perform program operation).1 <;> rfl

theorem perform_cases (program : Program) (operation : Operation) (machine : Machine) :
    (∃ rule, operation.applied? (machine.perform program operation).1 = some rule ∧
      Applied program rule machine (machine.perform program operation).2) ∨
    operation.applied? (machine.perform program operation).1 = none ∧
      (machine.perform program operation).2 = machine := by
  cases operation with
  | step =>
    simp only [perform]
    cases stepped : machine.step program with
    | ok found => exact .inl ⟨found.1,rfl,applied_of_step stepped⟩
    | error cause => exact .inr ⟨rfl,rfl⟩
  | lookup => exact .inr ⟨by cases found : machine.lookup program <;> simp [perform,found] <;> rfl,rfl⟩
  | symbol => exact .inr ⟨by cases found : machine.symbol <;> simp [perform,found] <;> rfl,rfl⟩
  | apply rule =>
    simp only [perform]
    cases done : machine.apply program rule with
    | ok next => exact .inl ⟨rule,rfl,applied_of done⟩
    | error cause => exact .inr ⟨rfl,rfl⟩

structure Standing (program : Program) (run : Run) (applied : List Rule) (machine : Machine) :
    Prop where
  filled : machine.tape.cells ≠ []
  filler : run.tape.getLast? = some machine.tape.filler
  head_nonneg : 0 ≤ machine.registers.head
  head_le : machine.registers.head ≤ machine.tape.cells.length
  off_halted : machine.head = machine.tape.cells.length → machine.halted = true
  halted_iff : machine.halted = true ↔ ∃ rule ∈ applied, program.halts rule.next = true
  steps : machine.steps = applied.length

theorem Fresh.standing {run : Run} {machine : Machine} (fresh : Fresh run machine)
    (filled : run.tape ≠ []) (program : Program) : Standing program run [] machine := by
  have inside := fresh.inside filled
  refine ⟨?_,fresh.filler,?_,?_,?_,?_,fresh.steps⟩
  · rw [fresh.cells]
    exact filled
  · exact Int.natCast_nonneg _
  · exact Int.ofNat_le.mpr (Nat.le_of_lt inside)
  · omega
  · simp [fresh.running]

theorem Standing.apply {program : Program} {run : Run} {rules : List Rule} {machine next : Machine}
    {rule : Rule} (standing : Standing program run rules machine)
    (applied : Applied program rule machine next) : Standing program run (rules ++ [rule]) next := by
  have halted := applied.halted
  obtain ⟨head_le,runs⟩ := applied.stands
  refine ⟨?_,?_,Int.natCast_nonneg _,Int.ofNat_le.mpr head_le,?_,?_,?_⟩
  · rw [applied.cells]
    simp [standing.filled]
  · rw [applied.filler]
    exact standing.filler
  · intro off
    cases halts : program.halts rule.next with
    | true => rw [halted,halts,Bool.true_or]
    | false =>
      have inside := runs halts
      omega
  · rw [halted,Bool.or_eq_true,standing.halted_iff]
    simp [or_and_right,exists_or,or_comm]
  · rw [applied.steps,standing.steps]
    simp

theorem Standing.perform {program : Program} {run : Run} {rules : List Rule} {machine : Machine}
    (standing : Standing program run rules machine) (operation : Operation) :
    Standing program run (rules ++ (operation.applied? (machine.perform program operation).1).toList)
      (machine.perform program operation).2 := by
  rcases perform_cases program operation machine with ⟨rule,found,applied⟩ | ⟨found,same⟩
  · rw [found]
    exact standing.apply applied
  · rw [found,same]
    simpa using standing

theorem Standing.behind {program : Program} {run : Run} {rules : List Rule} {machine : Machine}
    (standing : Standing program run rules machine) (operations : List Operation) :
    Standing program run (rules ++ machine.appliedRules program operations)
      (machine.behind program operations) := by
  induction operations generalizing rules machine with
  | nil => simpa [appliedRules,Machine.behind,performAll] using standing
  | cons operation operations ih =>
    rw [appliedRules_cons,behind_cons,← List.append_assoc]
    exact ih (standing.perform operation)

theorem perform_off {program : Program} {machine : Machine} (filled : machine.tape.cells ≠ [])
    (off : machine.head = machine.tape.cells.length) (operation : Operation) :
    machine.perform program operation = (.error .offTape,machine) := by
  have unread : machine.symbol = .error .offTape := by
    unfold symbol
    cases read : machine.headed.read with
    | error _ => rfl
    | ok symbol =>
      have cell := (Tape.Headed.read_eq_ok_iff _ _).mp read
      have inside := (List.getElem?_eq_some_iff.mp cell).1
      exact absurd inside (Nat.not_lt_of_le (Nat.le_of_eq off.symm))
  have unfound : machine.lookup program = .error .offTape := by simp [lookup,unread]
  cases operation with
  | step => simp [Machine.perform,step,unfound]
  | lookup => simp [Machine.perform,unfound,Except.map]
  | symbol => simp [Machine.perform,unread,Except.map]
  | apply rule =>
    -- There is a cell, so nothing leads from behind it past the left end.
    have some := List.length_pos_iff.mpr filled
    cases target : rule.direction.beside? machine.head with
    | none =>
      have left := Direction.beside?_eq_none_iff.mp target
      cases direction : rule.direction <;> simp [direction,Direction.offset] at left <;> omega
    | some place =>
      simp [Machine.perform,apply_outside program target (Nat.le_of_eq off.symm)]

structure Contained (program : Program) (operation : Operation) (machine : Machine) : Prop where
  failed : ∀ cause after, Registers.perform program operation machine.registers = .error cause after →
    after = machine.registers
  unapplied : operation.applied? (machine.perform program operation).1 = none →
    (machine.perform program operation).2 = machine
  applied : ∀ rule, operation.applied? (machine.perform program operation).1 = some rule →
    Applied program rule machine (machine.perform program operation).2
  halted : machine.halted = true → (machine.perform program operation).2.halted = true
  off : machine.head = machine.tape.cells.length → ∀ later,
    machine.performAll program later = later.map fun _ => (.error .offTape,machine)

theorem contained {program : Program} {machine : Machine} (filled : machine.tape.cells ≠ [])
    (operation : Operation) : Contained program operation machine := by
  have agrees := perform_registers program operation machine
  refine ⟨?_,?_,?_,?_,?_⟩
  · intro cause after failed
    rw [failed] at agrees
    obtain ⟨told,left⟩ := Prod.mk.inj agrees
    rcases perform_cases program operation machine with ⟨rule,found,_⟩ | ⟨_,same⟩
    · rw [← told] at found
      cases operation <;> cases found
    · rw [left,same]
  · intro nothing
    rcases perform_cases program operation machine with ⟨rule,found,_⟩ | ⟨_,same⟩
    · simp [found] at nothing
    · exact same
  · intro rule found
    rcases perform_cases program operation machine with ⟨rule',found',applied⟩ | ⟨nothing,_⟩
    · cases found.symm.trans found'
      exact applied
    · simp [found] at nothing
  · intro halted
    rcases perform_cases program operation machine with ⟨rule,_,applied⟩ | ⟨_,same⟩
    · simp [applied.halted,halted]
    · rw [same]
      exact halted
  · intro off later
    induction later with
    | nil => rfl
    | cons operation later ih =>
      rw [performAll,perform_off filled off,List.map_cons,ih]

-- Whatever is done with a machine, the registers agree with it, its head stands on a cell or,
-- once it has halted, right behind the last one, and no failure leaves a trace.
theorem safe_under_any_use (program : Program) (run : Run) (filled : run.tape ≠ []) :
    ∃ fresh, start run = .ok fresh ∧ ∀ operations,
      Registers.performAll program operations fresh.registers =
        (fresh.performAll program operations).map (fun (found,after) => (found,after.registers)) ∧
      Standing program run (fresh.appliedRules program operations) (fresh.behind program operations) ∧
      ∀ operation, Contained program operation (fresh.behind program operations) := by
  obtain ⟨fresh,begun⟩ := fresh_of run filled
  refine ⟨fresh,begun.started,fun operations => ?_⟩
  have standing := (begun.standing filled program).behind operations
  exact ⟨performAll_registers program operations fresh,standing,contained standing.filled⟩

def leaving : Program := .of [⟨"s","a","b",.right,"HALT"⟩] [] []

theorem safe_under_any_use_leaving : ["a"] ≠ [] ∧
    ∃ fresh, start ⟨["a"],"s"⟩ = .ok fresh ∧ ∀ operations,
      Registers.performAll leaving operations fresh.registers =
        (fresh.performAll leaving operations).map (fun (found,after) => (found,after.registers)) ∧
      Standing leaving ⟨["a"],"s"⟩ (fresh.appliedRules leaving operations)
        (fresh.behind leaving operations) ∧
      ∀ operation, Contained leaving operation (fresh.behind leaving operations) :=
  ⟨by simp,safe_under_any_use leaving ⟨["a"],"s"⟩ (by simp)⟩

example : (start ⟨["a"],"s"⟩).toOption.map (fun fresh =>
      (fresh.performAll leaving [.step,.apply ⟨"HALT","b","c",.left,"s"⟩]).map
        fun (found,after) => (found,after.tape.cells,after.head)) =
    some [(.ok (.rule ⟨"s","a","b",.right,"HALT"⟩),["b"],1),(.error .offTape,["b"],1)] := by
  rfl

end Machine

end TapeMachine
