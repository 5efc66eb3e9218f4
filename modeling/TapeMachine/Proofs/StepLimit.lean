import TapeMachine.Proofs.Course

-- How a run ends under a limit, told by the machines that steps alone lead to. Halting exactly
-- at the limit still counts, failing exactly there does not, and a limit below one stops the
-- run before its first step.
namespace TapeMachine

namespace Machine

structure HaltsAt (program : Program) (machine : Machine) (count : Nat) (last : Machine) : Prop where
  reached : machine.advance program count = .ok last
  halted : last.halted = true
  before : ∀ earlier < count, ∃ reached,
    machine.advance program earlier = .ok reached ∧ reached.halted = false

structure FailsAt (program : Program) (machine : Machine) (count : Nat) (cause : MachineError) :
    Prop where
  fails : ∃ reached, machine.advance program count = .ok reached ∧ reached.step program = .error cause
  before : ∀ earlier ≤ count, ∃ reached,
    machine.advance program earlier = .ok reached ∧ reached.halted = false

theorem haltsAt_iff {program : Program} {machine last : Machine} {count : Nat} :
    HaltsAt program machine count last ↔ last.halted = true ∧
      ∃ moments, moments.length = count ∧ Course program machine moments last := by
  rw [course_iff_advance]
  exact ⟨fun halts => ⟨halts.halted,halts.reached,halts.before⟩,
    fun halts => ⟨halts.2.1,halts.1,halts.2.2⟩⟩

theorem failsAt_iff {program : Program} {machine : Machine} {count : Nat} {cause : MachineError} :
    FailsAt program machine count cause ↔ ∃ last, last.halted = false ∧
      last.step program = .error cause ∧
        ∃ moments, moments.length = count ∧ Course program machine moments last := by
  constructor
  · intro failing
    obtain ⟨last,reached,failed⟩ := failing.fails
    obtain ⟨same,found,running⟩ := failing.before count (Nat.le_refl count)
    cases reached.symm.trans found
    exact ⟨last,running,failed,course_iff_advance.mpr
      ⟨reached,fun earlier less => failing.before earlier (Nat.le_of_lt less)⟩⟩
  · intro found
    obtain ⟨last,running,failed,course⟩ := found
    obtain ⟨reached,before⟩ := course_iff_advance.mp course
    refine ⟨⟨last,reached,failed⟩,?_⟩
    intro earlier less
    rcases Nat.lt_or_eq_of_le less with sooner | rfl
    · exact before earlier sooner
    · exact ⟨last,reached,running⟩

theorem Ends.limited_of_step {program : Program} {limit : Option Int} {machine next : Machine}
    {rule : Rule} {ending : Ending} (ends : machine.Ends program limit ending)
    (running : machine.halted = false) (stepped : machine.step program = .ok (rule,next)) :
    ∃ most ∈ limit, most ≤ machine.steps := by
  obtain ⟨found,applied⟩ := step_eq_ok_iff.mp stepped
  cases ends with
  | halted stopped => simp [running] at stopped
  | limited _ reached =>
    obtain ⟨given,used⟩ := reached?_eq_some_iff.mp reached
    exact ⟨_,given,used⟩
  | stuck _ _ missing => cases found.symm.trans missing
  | refused _ _ found' failed =>
    cases found.symm.trans found'
    cases applied.symm.trans failed

end Machine

open Machine

variable {program : Program} {run : Run} {fresh : Machine} {limit : Option Int}

def Execution.shown (execution : Execution) : String :=
  execution.run.text ++ "\n" ++ String.join (execution.moments.map Moment.text)

theorem Execution.trace_shown {execution : Execution} (tape : execution.ending ≠ .noTape) :
    ∃ more, execution.trace = execution.shown ++ more := by
  unfold trace
  cases ending : execution.ending with
  | noTape => exact absurd ending tape
  | halted machine => exact ⟨_,by simp only [shown,String.append_assoc]; rfl⟩
  | stuck cause => exact ⟨"",by simp [shown]⟩
  | refused moment cause => exact ⟨moment.text,rfl⟩
  | limited most state => exact ⟨"",by simp [shown]⟩

theorem Execution.result_limited {execution : Execution} {keepHistory : Bool} {most : Int}
    {state : String} (limited : execution.result keepHistory = .error (.stepLimit most state)) :
    execution.ending = .limited most state ∧ execution.trace = execution.shown := by
  unfold result at limited
  split at limited <;> cases limited
  rename_i ending
  exact ⟨ending,by simp [trace,shown,ending]⟩

theorem returns_iff (started : Fresh run fresh) (keepHistory : Bool) (count : Nat) :
    (∃ execution result, program.ComesTo limit run execution ∧
      execution.result keepHistory = .ok result ∧ result.steps = count) ↔
    (∃ last, HaltsAt program fresh count last) ∧ ∀ most ∈ limit, (count : Int) ≤ most := by
  constructor
  · intro returned
    obtain ⟨⟨ran,moments,ending⟩,result,comes,same,steps⟩ := returned
    obtain ⟨_,last,course,ends,within⟩ := (Program.comesTo_iff started).mp comes
    cases ends with
    | halted stopped =>
      cases same
      have length : moments.length = count := by
        rw [← steps,started.counted course]
      refine ⟨⟨last,haltsAt_iff.mpr ⟨stopped,moments,length,course⟩⟩,?_⟩
      intro most given
      have enough := within most given
      have some : moments ≠ [] := by
        rintro rfl
        cases course
        simp [started.running] at stopped
      have positive := List.length_pos_iff.mpr some
      simp only at enough
      omega
    | _ => cases same
  · intro found
    obtain ⟨⟨last,halts⟩,within⟩ := found
    obtain ⟨stopped,moments,length,course⟩ := haltsAt_iff.mp halts
    have steps : last.steps = count := (started.counted course).trans length
    refine ⟨⟨run,moments,.halted last⟩,_,(Program.comesTo_iff started).mpr
      ⟨rfl,last,course,.halted stopped,?_⟩,rfl,steps⟩
    intro most given
    have enough := within most given
    simp only [length]
    omega

theorem fails_iff (started : Fresh run fresh) (keepHistory : Bool) (count : Nat)
    (cause : MachineError) : (∃ execution, program.ComesTo limit run execution ∧
      execution.result keepHistory = .error (.machine cause) ∧ execution.moments.length = count) ↔
    FailsAt program fresh count cause ∧ ∀ most ∈ limit, (count : Int) < most := by
  rw [failsAt_iff]
  constructor
  · intro failing
    obtain ⟨execution,comes,failed,length⟩ := failing
    obtain ⟨_,last,course,ends,_⟩ := (Program.comesTo_iff started).mp comes
    obtain ⟨running,clear,stepped⟩ :=
      ends_failing_iff.mp ⟨_,ends,Execution.result_eq_error_iff.mp failed⟩
    rw [started.counted course,length] at clear
    exact ⟨⟨last,running,stepped,_,length,course⟩,reached?_eq_none_iff.mp clear⟩
  · intro found
    obtain ⟨⟨last,running,stepped,moments,length,course⟩,within⟩ := found
    have clear : reached? limit last.steps = none := by
      rw [started.counted course,length]
      exact reached?_eq_none_iff.mpr within
    obtain ⟨ending,ends,failed⟩ := ends_failing_iff.mpr ⟨running,clear,stepped⟩
    refine ⟨⟨run,moments,ending⟩,(Program.comesTo_iff started).mpr ⟨rfl,last,course,ends,?_⟩,
      Execution.result_eq_error_iff.mpr failed,length⟩
    intro most given
    have below := within most given
    simp only [length]
    omega

theorem exceeds (started : Fresh run fresh) (keepHistory : Bool) {most : Int}
    (noHalt : ¬ ∃ count last, HaltsAt program fresh count last ∧ (count : Int) ≤ most)
    (noFailure : ¬ ∃ count cause, FailsAt program fresh count cause ∧ (count : Int) < most) :
    ∃ execution reached, program.ComesTo (some most) run execution ∧
      fresh.advance program (max most 0).toNat = .ok reached ∧
      execution.result keepHistory = .error (.stepLimit most reached.state) := by
  obtain ⟨execution,executed⟩ := program.execute_limited started most 0
  have comes : program.ComesTo (some most) run execution := ⟨0,executed⟩
  obtain ⟨_,last,course,ends,within⟩ := (Program.comesTo_iff started).mp comes
  obtain ⟨ran,moments,ending⟩ := execution
  have steps : last.steps = moments.length := started.counted course
  cases ends with
  | halted stopped =>
    have returned := (returns_iff started keepHistory last.steps).mp ⟨_,_,comes,rfl,rfl⟩
    obtain ⟨⟨same,halts⟩,inTime⟩ := returned
    exact absurd ⟨_,same,halts,inTime most rfl⟩ noHalt
  | @stuck cause _ _ _ =>
    have failed := (fails_iff started keepHistory moments.length cause).mp ⟨_,comes,rfl,rfl⟩
    exact absurd ⟨_,cause,failed.1,failed.2 most rfl⟩ noFailure
  | @refused _ cause _ _ _ _ =>
    have failed := (fails_iff started keepHistory moments.length cause).mp ⟨_,comes,rfl,rfl⟩
    exact absurd ⟨_,cause,failed.1,failed.2 most rfl⟩ noFailure
  | limited running reached =>
    obtain ⟨given,used⟩ := reached?_eq_some_iff.mp reached
    cases given
    have enough : moments.length ≤ most.toNat := within most rfl
    have count : (max most 0).toNat = moments.length := by omega
    refine ⟨_,last,comes,?_,rfl⟩
    rw [count]
    exact (course_iff_advance.mp ⟨moments,rfl,course⟩).1

theorem stable (started : Fresh run fresh) {wider : Option Int} {execution : Execution}
    (larger : ∀ bound ∈ wider, ∃ most ∈ limit, most ≤ bound)
    (comes : program.ComesTo limit run execution)
    (other : ∀ most state keepHistory, execution.result keepHistory ≠ .error (.stepLimit most state)) :
    program.ComesTo wider run execution := by
  obtain ⟨ran,last,course,ends,within⟩ := (Program.comesTo_iff started).mp comes
  refine (Program.comesTo_iff started).mpr ⟨ran,last,course,?_,?_⟩
  · have clear : reached? limit last.steps = none → reached? wider last.steps = none := by
      simp only [reached?_eq_none_iff]
      intro below bound given
      obtain ⟨most,given',less⟩ := larger bound given
      exact Int.lt_of_lt_of_le (below most given') less
    generalize ended : execution.ending = ending at ends ⊢
    cases ends with
    | halted stopped => exact .halted stopped
    | @limited most _ _ =>
      refine absurd ?_ (other most last.state false)
      simp [Execution.result,ended]
    | stuck running before missing => exact .stuck running (clear before) missing
    | refused running before found failed => exact .refused running (clear before) found failed
  · intro bound given
    obtain ⟨most,given',less⟩ := larger bound given
    have enough := within most given'
    omega

theorem traces (started : Fresh run fresh) {wider : Option Int} {execution later : Execution}
    {most : Int} {state : String} {keepHistory : Bool}
    (comes : program.ComesTo (some most) run execution)
    (limited : execution.result keepHistory = .error (.stepLimit most state))
    (larger : ∀ bound ∈ wider, most ≤ bound) (comes' : program.ComesTo wider run later) :
    ∃ more, later.trace = execution.trace ++ more := by
  obtain ⟨ending,trace⟩ := Execution.result_limited limited
  obtain ⟨ran,last,course,ends,within⟩ := (Program.comesTo_iff started).mp comes
  obtain ⟨ran',last',course',ends',within'⟩ := (Program.comesTo_iff started).mp comes'
  -- The other run cannot have ended sooner: there it could still take a step, as this one did.
  have longer : execution.moments.length ≤ later.moments.length := by
    refine Nat.le_of_not_lt fun shorter => ?_
    have enough := within most rfl
    obtain ⟨rest,same,onward⟩ := course'.continues course (Nat.le_of_lt shorter)
    cases onward with
    | done => simp [same] at shorter
    | more running stepped _ =>
      obtain ⟨bound,given,used⟩ := ends'.limited_of_step running stepped
      have wide := larger bound given
      have steps := started.counted course'
      omega
  obtain ⟨rest,same,_⟩ := course.continues course' longer
  have tape : later.ending ≠ .noTape := by
    intro noTape
    rw [noTape] at ends'
    cases ends'
  obtain ⟨more,shown⟩ := Execution.trace_shown tape
  refine ⟨String.join (rest.map Moment.text) ++ more,?_⟩
  rw [shown,trace,Execution.shown,Execution.shown,ran,ran',same,List.map_append,String.join_append]
  simp only [String.append_assoc]

structure LimitDecides (program : Program) (run : Run) (fresh : Machine) : Prop where
  returns : ∀ (limit : Option Int) (keepHistory : Bool) (count : Nat),
    (∃ execution result, program.ComesTo limit run execution ∧
      execution.result keepHistory = .ok result ∧ result.steps = count) ↔
    (∃ last, HaltsAt program fresh count last) ∧ ∀ most ∈ limit, (count : Int) ≤ most
  fails : ∀ (limit : Option Int) (keepHistory : Bool) (count : Nat) (cause : MachineError),
    (∃ execution, program.ComesTo limit run execution ∧
      execution.result keepHistory = .error (.machine cause) ∧ execution.moments.length = count) ↔
    FailsAt program fresh count cause ∧ ∀ most ∈ limit, (count : Int) < most
  exceeds : ∀ (most : Int) (keepHistory : Bool),
    (¬ ∃ count last, HaltsAt program fresh count last ∧ (count : Int) ≤ most) →
    (¬ ∃ count cause, FailsAt program fresh count cause ∧ (count : Int) < most) →
    ∃ execution reached, program.ComesTo (some most) run execution ∧
      fresh.advance program (max most 0).toNat = .ok reached ∧
      execution.result keepHistory = .error (.stepLimit most reached.state)
  unique : ∀ (limit : Option Int) (execution other : Execution),
    program.ComesTo limit run execution → program.ComesTo limit run other → execution = other
  ends : ∀ (most : Int) (patience : Nat), ∃ execution,
    program.execute (some most) patience run = some execution ∧
      execution.moments.length ≤ max most 0
  stable : ∀ (limit wider : Option Int) (execution : Execution),
    (∀ bound ∈ wider, ∃ most ∈ limit, most ≤ bound) → program.ComesTo limit run execution →
    (∀ most state keepHistory, execution.result keepHistory ≠ .error (.stepLimit most state)) →
    program.ComesTo wider run execution
  traces : ∀ (most : Int) (state : String) (keepHistory : Bool) (wider : Option Int)
    (execution later : Execution), program.ComesTo (some most) run execution →
    execution.result keepHistory = .error (.stepLimit most state) →
    (∀ bound ∈ wider, most ≤ bound) → program.ComesTo wider run later →
    ∃ more, later.trace = execution.trace ++ more

def flipping : Program :=
  .of [⟨"A","0","1",.right,"A"⟩,⟨"A","1","0",.right,"B"⟩] [] ["B"]

example : ([2,1] : List Int).map (fun most =>
      (flipping.execute (some most) 0 ⟨["0","1"],"A"⟩).map fun execution =>
        (execution.result false).map RunResult.steps) =
    [some (.ok 2),some (.error (.stepLimit 1 "A"))] := by
  rfl

end TapeMachine
