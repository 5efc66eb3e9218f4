import TapeMachine.Execution
import TapeMachine.Proofs.Stepping

-- The way that a run takes from machine to machine, and the machine at which it ends. Ways say
-- nothing of fuel or patience: what is proved about them holds of every execution.
namespace TapeMachine

theorem reached?_eq_none_iff {limit : Option Int} {steps : Nat} :
    reached? limit steps = none ↔ ∀ most ∈ limit, (steps : Int) < most := by
  cases limit <;> simp [reached?,Option.filter]

theorem reached?_eq_some_iff {limit : Option Int} {steps : Nat} {most : Int} :
    reached? limit steps = some most ↔ limit = some most ∧ most ≤ steps := by
  cases limit with
  | none => simp [reached?]
  | some bound =>
    simp only [reached?,Option.filter_some,Option.some.injEq]
    constructor
    · intro reached
      split at reached <;> simp_all
    · intro found
      obtain ⟨rfl,used⟩ := found
      simp [used]

def advance (halted : σ → Bool) (step : σ → Except ε (α × σ)) (start : σ) : Nat → Except ε σ
  | 0 => .ok start
  | count+1 => (advance halted step start count).bind fun reached =>
    if halted reached then .ok reached else (step reached).map Prod.snd

namespace Machine

def advance (program : Program) : Machine → Nat → Except MachineError Machine :=
  TapeMachine.advance Machine.halted (Machine.step program)

theorem advance_succ (program : Program) (machine : Machine) (count : Nat) :
    machine.advance program (count+1) = (machine.advance program count).bind fun reached =>
      if reached.halted then .ok reached else (reached.step program).map Prod.snd := rfl

theorem advance_succ_eq_ok_iff {program : Program} {machine reached last : Machine} {count : Nat}
    (arrived : machine.advance program count = .ok reached) (running : reached.halted = false) :
    machine.advance program (count+1) = .ok last ↔ ∃ rule, reached.step program = .ok (rule,last) := by
  rw [advance_succ,arrived]
  simp only [Except.bind,running,Bool.false_eq_true,if_false]
  cases reached.step program with
  | error cause => simp [Except.map]
  | ok found => simp [Except.map,Prod.ext_iff]

def moment (machine : Machine) (rule : Rule) : Moment := ⟨machine.steps,rule,machine.headed⟩

theorem step_eq_ok_iff {program : Program} {machine next : Machine} {rule : Rule} :
    machine.step program = .ok (rule,next) ↔
      machine.lookup program = .ok rule ∧ machine.apply program rule = .ok next := by
  unfold step
  cases machine.lookup program with
  | error cause => simp
  | ok found =>
    simp only
    cases applied : machine.apply program found with
    | error cause =>
      simp only [Except.ok.injEq]
      constructor
      · intro stepped
        cases stepped
      · intro done
        obtain ⟨rfl,done⟩ := done
        rw [applied] at done
        cases done
    | ok after =>
      simp only [Except.ok.injEq,Prod.mk.injEq]
      constructor
      · intro same
        obtain ⟨rfl,rfl⟩ := same
        exact ⟨rfl,applied⟩
      · intro done
        obtain ⟨rfl,done⟩ := done
        rw [applied] at done
        cases done
        exact ⟨rfl,rfl⟩

theorem step_eq_error_iff {program : Program} {machine : Machine} {cause : MachineError} :
    machine.step program = .error cause ↔ machine.lookup program = .error cause ∨
      ∃ rule, machine.lookup program = .ok rule ∧ machine.apply program rule = .error cause := by
  unfold step
  cases machine.lookup program with
  | error other => simp
  | ok rule =>
    simp only
    cases applied : machine.apply program rule <;> simp [applied]

theorem applied_of_step {program : Program} {rule : Rule} {machine next : Machine}
    (stepped : machine.step program = .ok (rule,next)) : Applied program rule machine next :=
  applied_of (step_eq_ok_iff.mp stepped).2

inductive Course (program : Program) : Machine → List Moment → Machine → Prop where
  | done : Course program machine [] machine
  | more {machine next last : Machine} {rule : Rule} {moments : List Moment} :
      machine.halted = false → machine.step program = .ok (rule,next) →
      Course program next moments last → Course program machine (machine.moment rule :: moments) last

-- Where a way ends, and how. Halting counts before the limit, and the limit before a failure.
inductive Ends (program : Program) (limit : Option Int) (machine : Machine) : Ending → Prop where
  | halted : machine.halted = true → Ends program limit machine (.halted machine)
  | limited : machine.halted = false → reached? limit machine.steps = some most →
      Ends program limit machine (.limited most machine.state)
  | stuck : machine.halted = false → reached? limit machine.steps = none →
      machine.lookup program = .error cause → Ends program limit machine (.stuck cause)
  | refused : machine.halted = false → reached? limit machine.steps = none →
      machine.lookup program = .ok rule → machine.apply program rule = .error cause →
      Ends program limit machine (.refused (machine.moment rule) cause)

namespace Course

variable {program : Program} {machine middle last : Machine} {first rest moments : List Moment}

theorem append (begun : Course program machine first middle)
    (finished : Course program middle rest last) : Course program machine (first ++ rest) last := by
  induction begun with
  | done => exact finished
  | more running stepped _ ih => exact .more running stepped (ih finished)

theorem split (course : Course program machine (first ++ rest) last) :
    ∃ middle, Course program machine first middle ∧ Course program middle rest last := by
  induction first generalizing machine with
  | nil => exact ⟨machine,.done,course⟩
  | cons moment first ih =>
    cases course with
    | more running stepped later =>
      obtain ⟨middle,begun,finished⟩ := ih later
      exact ⟨middle,.more running stepped begun,finished⟩

theorem steps_eq (course : Course program machine moments last) :
    last.steps = machine.steps + moments.length := by
  induction course with
  | done => rfl
  | more _ stepped _ ih =>
    rw [ih,(applied_of_step stepped).steps,List.length_cons]
    omega

theorem moment_steps (course : Course program machine moments last) :
    moments.map Moment.step = List.range' machine.steps moments.length := by
  induction course with
  | done => rfl
  | more _ stepped _ ih =>
    rw [List.map_cons,ih,(applied_of_step stepped).steps,List.length_cons,List.range'_succ]
    rfl

theorem within_iff (course : Course program machine moments last) (fresh : machine.steps = 0)
    (limit : Option Int) : (∀ moment ∈ moments, reached? limit moment.step = none) ↔
      ∀ most ∈ limit, moments.length ≤ most.toNat := by
  have steps : (∀ moment ∈ moments, reached? limit moment.step = none) ↔
      ∀ step ∈ moments.map Moment.step, reached? limit step = none := by simp
  rw [steps,course.moment_steps,fresh]
  simp only [List.mem_range'_1,Nat.zero_le,true_and,Nat.zero_add,reached?_eq_none_iff]
  constructor
  · intro below most given
    cases length : moments.length with
    | zero => exact Nat.zero_le _
    | succ count =>
      have last := below count (by omega) most given
      omega
  · intro within step member most given
    have enough := within most given
    omega

theorem continues {later : Machine} {longer : List Moment}
    (course : Course program machine moments last) (other : Course program machine longer later)
    (shorter : moments.length ≤ longer.length) :
    ∃ rest, longer = moments ++ rest ∧ Course program last rest later := by
  induction course generalizing longer with
  | done => exact ⟨longer,rfl,other⟩
  | more _ stepped _ ih =>
    cases other with
    | done => cases shorter
    | more _ stepped' finished =>
      cases stepped.symm.trans stepped'
      obtain ⟨rest,same,course⟩ := ih finished (Nat.le_of_succ_le_succ shorter)
      exact ⟨rest,by rw [same]; rfl,course⟩

theorem inside (course : Course program machine moments last)
    (stands : machine.halted = false → machine.head < machine.tape.cells.length) :
    last.halted = false → last.head < last.tape.cells.length := by
  induction course with
  | done => exact stands
  | @more machine next last rule moments running stepped _ ih =>
    have applied := applied_of_step stepped
    refine ih fun goesOn => applied.stands.2 ?_
    simpa [running,goesOn] using applied.halted.symm

theorem stands (course : Course program machine moments last)
    (near : machine.head ≤ machine.tape.cells.length) : last.head ≤ last.tape.cells.length := by
  induction course with
  | done => exact near
  | more _ stepped _ ih => exact ih (applied_of_step stepped).stands.1

end Course

theorem course_iff_advance {program : Program} {machine last : Machine} {count : Nat} :
    (∃ moments, moments.length = count ∧ Course program machine moments last) ↔
      machine.advance program count = .ok last ∧ ∀ earlier < count, ∃ reached,
        machine.advance program earlier = .ok reached ∧ reached.halted = false := by
  induction count generalizing last with
  | zero =>
    constructor
    · intro found
      obtain ⟨moments,none,course⟩ := found
      cases List.length_eq_zero_iff.mp none
      cases course
      exact ⟨rfl,by simp⟩
    · intro reached
      cases reached.1
      exact ⟨[],rfl,.done⟩
  | succ count ih =>
    constructor
    · intro found
      obtain ⟨moments,length,course⟩ := found
      have some : moments ≠ [] := by
        rintro rfl
        cases length
      rw [← List.dropLast_concat_getLast some] at course
      obtain ⟨middle,begun,finished⟩ := course.split
      obtain ⟨arrived,before⟩ := ih.mp ⟨_,by simp [length],begun⟩
      generalize moments.getLast some = latest at finished
      cases finished with
      | @more _ _ _ rule _ running stepped ended =>
        cases ended
        refine ⟨(advance_succ_eq_ok_iff arrived running).mpr ⟨rule,stepped⟩,?_⟩
        intro earlier less
        rcases Nat.lt_succ_iff_lt_or_eq.mp less with sooner | rfl
        · exact before earlier sooner
        · exact ⟨middle,arrived,running⟩
    · intro reached
      obtain ⟨ended,before⟩ := reached
      obtain ⟨middle,arrived,running⟩ := before count (Nat.lt_succ_self count)
      obtain ⟨rule,stepped⟩ := (advance_succ_eq_ok_iff arrived running).mp ended
      obtain ⟨moments,length,course⟩ := ih.mpr ⟨arrived,fun earlier less =>
        before earlier (Nat.lt_succ_of_lt less)⟩
      exact ⟨moments ++ [middle.moment rule],by simp [length],course.append (.more running stepped .done)⟩

theorem ends_or_steps (program : Program) (limit : Option Int) (machine : Machine) :
    (∃ ending, machine.Ends program limit ending) ∨
      machine.halted = false ∧ reached? limit machine.steps = none ∧
        ∃ rule next, machine.step program = .ok (rule,next) := by
  cases running : machine.halted with
  | true => exact .inl ⟨_,.halted running⟩
  | false =>
    cases clear : reached? limit machine.steps with
    | some most => exact .inl ⟨_,.limited running clear⟩
    | none =>
      cases stepped : machine.step program with
      | ok found => exact .inr ⟨rfl,rfl,found.1,found.2,rfl⟩
      | error cause =>
        rcases step_eq_error_iff.mp stepped with missing | ⟨rule,found,failed⟩
        · exact .inl ⟨_,.stuck running clear missing⟩
        · exact .inl ⟨_,.refused running clear found failed⟩

theorem ends_failing_iff {program : Program} {limit : Option Int} {machine : Machine}
    {cause : MachineError} :
    (∃ ending, machine.Ends program limit ending ∧ ending.error? = some (.machine cause)) ↔
      machine.halted = false ∧ reached? limit machine.steps = none ∧
        machine.step program = .error cause := by
  constructor
  · intro found
    obtain ⟨ending,ends,failed⟩ := found
    cases ends with
    | halted | limited => cases failed
    | stuck running clear missing =>
      cases failed
      exact ⟨running,clear,step_eq_error_iff.mpr (.inl missing)⟩
    | refused running clear found refused =>
      cases failed
      exact ⟨running,clear,step_eq_error_iff.mpr (.inr ⟨_,found,refused⟩)⟩
  · intro failing
    obtain ⟨running,clear,failed⟩ := failing
    rcases step_eq_error_iff.mp failed with missing | ⟨rule,found,refused⟩
    · exact ⟨_,.stuck running clear missing,rfl⟩
    · exact ⟨_,.refused running clear found refused,rfl⟩

theorem moments_of_ends {program : Program} {limit : Option Int} {machine : Machine}
    {ending : Ending} (ends : machine.Ends program limit ending) (fuel : Nat) (past : List Moment) :
    machine.moments program limit fuel past = some (past.reverse,ending) := by
  unfold moments
  cases ends with
  | halted stopped => simp [stopped]
  | limited running reached => simp [running,reached]
  | stuck running clear missing => simp [running,clear,missing]
  | refused running clear found failed => simp [running,clear,found,failed,moment]

theorem moments_of_step {program : Program} {limit : Option Int} {machine next : Machine}
    {rule : Rule} (running : machine.halted = false) (clear : reached? limit machine.steps = none)
    (stepped : machine.step program = .ok (rule,next)) (past : List Moment) :
    machine.moments program limit 0 past = none ∧ ∀ fuel,
      machine.moments program limit (fuel+1) past =
        next.moments program limit fuel (machine.moment rule :: past) := by
  obtain ⟨found,applied⟩ := step_eq_ok_iff.mp stepped
  constructor
  · simp [moments,running,clear,found,applied]
  · intro fuel
    rw [moments.eq_def]
    simp [running,clear,found,applied,moment]

theorem moments_sound {program : Program} {limit : Option Int} {fuel : Nat} {machine : Machine}
    {past all : List Moment} {ending : Ending}
    (ended : machine.moments program limit fuel past = some (all,ending)) :
    ∃ moments last, Course program machine moments last ∧ last.Ends program limit ending ∧
      (∀ moment ∈ moments, reached? limit moment.step = none) ∧ all = past.reverse ++ moments := by
  induction fuel generalizing machine past with
  | zero =>
    rcases ends_or_steps program limit machine with ⟨here,ends⟩ | ⟨running,clear,rule,next,stepped⟩
    · rw [moments_of_ends ends] at ended
      cases ended
      exact ⟨[],machine,.done,ends,by simp,by simp⟩
    · rw [(moments_of_step running clear stepped past).1] at ended
      cases ended
  | succ fuel ih =>
    rcases ends_or_steps program limit machine with ⟨here,ends⟩ | ⟨running,clear,rule,next,stepped⟩
    · rw [moments_of_ends ends] at ended
      cases ended
      exact ⟨[],machine,.done,ends,by simp,by simp⟩
    · rw [(moments_of_step running clear stepped past).2] at ended
      obtain ⟨moments,last,course,ends,within,same⟩ := ih ended
      refine ⟨machine.moment rule :: moments,last,.more running stepped course,ends,?_,?_⟩
      · intro moment member
        rcases List.mem_cons.mp member with rfl | later
        · exact clear
        · exact within moment later
      · simp [same]

theorem moments_complete {program : Program} {limit : Option Int} {machine last : Machine}
    {moments : List Moment} {ending : Ending} (course : Course program machine moments last)
    (ends : last.Ends program limit ending)
    (within : ∀ moment ∈ moments, reached? limit moment.step = none) {fuel : Nat}
    (enough : moments.length ≤ fuel) (past : List Moment) :
    machine.moments program limit fuel past = some (past.reverse ++ moments,ending) := by
  induction course generalizing fuel past with
  | done =>
    rw [moments_of_ends ends]
    simp
  | @more machine next last rule moments running stepped _ ih =>
    cases fuel with
    | zero => cases enough
    | succ fuel =>
      have later : ∀ moment ∈ moments, reached? limit moment.step = none :=
        fun moment member => within moment (List.mem_cons_of_mem _ member)
      rw [(moments_of_step running (within _ List.mem_cons_self) stepped past).2,
        ih ends later (Nat.le_of_succ_le_succ enough)]
      simp

theorem moments_end (program : Program) {most : Int} {fuel : Nat} {machine : Machine}
    (enough : most ≤ machine.steps + fuel) (past : List Moment) :
    ∃ outcome, machine.moments program (some most) fuel past = some outcome := by
  induction fuel generalizing machine past with
  | zero =>
    rcases ends_or_steps program (some most) machine with ⟨here,ends⟩ | ⟨_,clear,_⟩
    · exact ⟨_,moments_of_ends ends _ _⟩
    · have below := reached?_eq_none_iff.mp clear most rfl
      simp at enough
      omega
  | succ fuel ih =>
    rcases ends_or_steps program (some most) machine with ⟨here,ends⟩ | ⟨running,clear,rule,next,stepped⟩
    · exact ⟨_,moments_of_ends ends _ _⟩
    · rw [(moments_of_step running clear stepped past).2]
      refine ih ?_ _
      rw [(applied_of_step stepped).steps]
      push_cast at enough ⊢
      omega

structure Fresh (run : Run) (machine : Machine) : Prop where
  started : start run = .ok machine
  state : machine.state = run.state
  cells : machine.tape.cells = run.tape
  filler : run.tape.getLast? = some machine.tape.filler
  head : machine.head = 0
  steps : machine.steps = 0
  running : machine.halted = false

theorem fresh_of (run : Run) (filled : run.tape ≠ []) : ∃ machine, Fresh run machine := by
  have last := List.getLast?_eq_some_getLast filled
  refine ⟨⟨⟨[],run.tape,run.tape.getLast filled⟩,run.state,0,false⟩,?_,rfl,rfl,last,rfl,rfl,rfl⟩
  simp [start,Tape.Headed.of,Tape.of,last]

theorem Fresh.inside {run : Run} {machine : Machine} (fresh : Fresh run machine)
    (filled : run.tape ≠ []) : machine.head < machine.tape.cells.length := by
  rw [fresh.head,fresh.cells]
  exact List.length_pos_iff.mpr filled

theorem Fresh.counted {program : Program} {run : Run} {machine last : Machine}
    {moments : List Moment} (fresh : Fresh run machine)
    (course : Course program machine moments last) : last.steps = moments.length := by
  rw [course.steps_eq,fresh.steps,Nat.zero_add]

end Machine

theorem Execution.result_eq_error_iff {execution : Execution} {keepHistory : Bool}
    {cause : RunError} : execution.result keepHistory = .error cause ↔
      execution.ending.error? = some cause := by
  unfold result
  cases execution.ending <;> simp [Ending.error?]

-- What a run comes to, with whatever patience that takes. A run without a limit may come to
-- nothing at all.
def Program.ComesTo (program : Program) (limit : Option Int) (run : Run) (execution : Execution) :
    Prop :=
  ∃ patience, program.execute limit patience run = some execution

open Machine

variable {program : Program} {limit : Option Int} {run : Run} {fresh : Machine}

theorem Program.execute_of_course (started : Fresh run fresh) {last : Machine}
    {moments : List Moment} {ending : Ending} (course : Course program fresh moments last)
    (ends : last.Ends program limit ending) (within : ∀ most ∈ limit, moments.length ≤ most.toNat)
    {patience : Nat} (enough : moments.length ≤ patience) :
    program.execute limit patience run = some ⟨run,moments,ending⟩ := by
  have fuel : moments.length ≤ fuelFor limit patience := by
    cases limit with
    | none => exact enough
    | some most => exact within most rfl
  have clear := (course.within_iff started.steps limit).mpr within
  simp [execute,started.started,moments_complete course ends clear fuel]

theorem Program.comesTo_iff (started : Fresh run fresh) {execution : Execution} :
    program.ComesTo limit run execution ↔ execution.run = run ∧
      ∃ last, Course program fresh execution.moments last ∧
        last.Ends program limit execution.ending ∧
        ∀ most ∈ limit, execution.moments.length ≤ most.toNat := by
  obtain ⟨ran,moments,ending⟩ := execution
  constructor
  · intro comes
    obtain ⟨patience,executed⟩ := comes
    simp only [execute,started.started] at executed
    obtain ⟨⟨all,here⟩,ended,same⟩ := Option.map_eq_some_iff.mp executed
    cases same
    obtain ⟨moments,last,course,ends,within,same⟩ := moments_sound ended
    simp only [List.reverse_nil,List.nil_append] at same
    subst same
    exact ⟨rfl,last,course,ends,(course.within_iff started.steps limit).mp within⟩
  · intro found
    obtain ⟨rfl,last,course,ends,within⟩ := found
    exact ⟨moments.length,execute_of_course started course ends within (Nat.le_refl _)⟩

theorem Program.ComesTo.unique (started : Fresh run fresh) {execution other : Execution}
    (comes : program.ComesTo limit run execution) (comes' : program.ComesTo limit run other) :
    execution = other := by
  obtain ⟨ran,moments,ending⟩ := execution
  obtain ⟨ran',moments',ending'⟩ := other
  obtain ⟨rfl,last,course,ends,within⟩ := (comesTo_iff started).mp comes
  obtain ⟨rfl,last',course',ends',within'⟩ := (comesTo_iff started).mp comes'
  have one := execute_of_course started course ends within (Nat.le_max_left _ moments'.length)
  have two := execute_of_course started course' ends' within' (Nat.le_max_right moments.length _)
  exact Option.some.inj (one.symm.trans two)

theorem Program.execute_limited (program : Program) (started : Fresh run fresh) (most : Int)
    (patience : Nat) :
    ∃ execution, program.execute (some most) patience run = some execution := by
  have enough : most ≤ fresh.steps + most.toNat := by
    rw [started.steps]
    omega
  obtain ⟨outcome,ended⟩ := moments_end program enough []
  simp only [execute,started.started,fuelFor,ended]
  exact ⟨_,rfl⟩

end TapeMachine
