import TapeMachine.Proofs.Course

-- What an execution depends on. More patience changes nothing once a run has ended, and of the
-- program only the rules that it finds and the states that it halts in have a part in it.
namespace TapeMachine

open Machine

namespace Machine

variable {program : Program} {limit : Option Int}

theorem moments_mono {fuel more : Nat} {machine : Machine} {past : List Moment}
    {outcome : List Moment × Ending} (ended : machine.moments program limit fuel past = some outcome)
    (grows : fuel ≤ more) : machine.moments program limit more past = some outcome := by
  induction fuel generalizing machine past more with
  | zero =>
    rcases ends_or_steps program limit machine with ⟨ending,ends⟩ | ⟨running,clear,rule,next,stepped⟩
    · rw [moments_of_ends ends] at ended ⊢
      exact ended
    · rw [(moments_of_step running clear stepped past).1] at ended
      cases ended
  | succ fuel ih =>
    rcases ends_or_steps program limit machine with ⟨ending,ends⟩ | ⟨running,clear,rule,next,stepped⟩
    · rw [moments_of_ends ends] at ended ⊢
      exact ended
    · obtain ⟨more,rfl⟩ : ∃ less, more = less+1 := ⟨more-1,by omega⟩
      rw [(moments_of_step running clear stepped past).2] at ended ⊢
      exact ih ended (Nat.le_of_succ_le_succ grows)

end Machine

namespace Program

variable {program other : Program} {limit : Option Int} {patience more : Nat} {run : Run}

theorem execute_mono {execution : Execution}
    (executed : program.execute limit patience run = some execution) (grows : patience ≤ more) :
    program.execute limit more run = some execution := by
  unfold execute at executed ⊢
  cases started : start run with
  | error cause =>
    rw [started] at executed
    exact executed
  | ok machine =>
    simp only [started,Option.map_eq_some_iff] at executed ⊢
    obtain ⟨outcome,ended,same⟩ := executed
    have fuel : fuelFor limit patience ≤ fuelFor limit more := by
      cases limit with
      | none => exact grows
      | some most => exact Nat.le_refl _
    exact ⟨outcome,moments_mono ended fuel,same⟩

-- Programs that a machine cannot tell apart: the same rule everywhere, and the same halts.
structure Alike (program other : Program) : Prop where
  rule : ∀ state symbol, other.rule? state symbol = program.rule? state symbol
  halts : ∀ state, other.halts state = program.halts state

theorem Alike.of_eq (rules : other.rules = program.rules)
    (haltStates : other.haltStates = program.haltStates) : program.Alike other where
  rule := by simp [rule?,rules]
  halts := by simp [Program.halts,haltStates]

theorem Alike.lookup (alike : program.Alike other) (machine : Machine) :
    machine.lookup other = machine.lookup program := by
  simp only [Machine.lookup,alike.rule]

theorem Alike.apply (alike : program.Alike other) (rule : Rule) (machine : Machine) :
    machine.apply other rule = machine.apply program rule := by
  simp only [Machine.apply,alike.halts]

theorem Alike.moments (alike : program.Alike other) (fuel : Nat) (past : List Moment)
    (machine : Machine) :
    machine.moments other limit fuel past = machine.moments program limit fuel past := by
  induction fuel generalizing past machine with
  | zero =>
    unfold Machine.moments
    simp only [alike.lookup,alike.apply]
  | succ fuel ih =>
    unfold Machine.moments
    simp only [alike.lookup,alike.apply,ih]

theorem Alike.execute (alike : program.Alike other) (limit : Option Int) (patience : Nat)
    (run : Run) : other.execute limit patience run = program.execute limit patience run := by
  unfold Program.execute
  simp only [alike.moments]

theorem Alike.executeAll (alike : program.Alike other) (runs : other.runs = program.runs)
    (limit : Option Int) (patience : Nat) :
    other.executeAll limit patience = program.executeAll limit patience := by
  have each (runs : List Run) :
      executeAll.go other limit patience runs = executeAll.go program limit patience runs := by
    induction runs with
    | nil => rfl
    | cons run runs ih =>
      unfold executeAll.go
      rw [alike.execute,ih]
  unfold Program.executeAll
  rw [runs,each]

theorem executeAll_runs {runs : List Run} {executions : List Execution}
    (executed : executeAll.go program limit patience runs = some executions) :
    executions.map Execution.run <+: runs ∧
      ∀ execution ∈ executions.dropLast, execution.ending.error? = none := by
  induction runs generalizing executions with
  | nil =>
    cases executed
    simp
  | cons run runs ih =>
    unfold executeAll.go at executed
    cases first : program.execute limit patience run with
    | none => simp [first] at executed
    | some execution =>
      have same : execution.run = run := by
        unfold execute at first
        cases started : start run with
        | error cause =>
          simp only [started,Option.some.injEq] at first
          rw [← first]
        | ok machine =>
          simp only [started,Option.map_eq_some_iff] at first
          obtain ⟨_,_,rfl⟩ := first
          rfl
      simp only [first] at executed
      split at executed
      · cases executed
        simp [same]
      · rename_i succeeded
        obtain ⟨rest,later,rfl⟩ := Option.map_eq_some_iff.mp executed
        obtain ⟨isPrefix,succeed⟩ := ih later
        refine ⟨by simpa [same] using isPrefix,?_⟩
        cases rest with
        | nil => simp
        | cons next rest =>
          simpa [List.dropLast_cons_of_ne_nil] using ⟨by simpa using succeeded,succeed⟩

end Program

end TapeMachine
