import TapeMachine.Proofs.Telling

-- The written trace in every outcome. Which outcome there is, where the machine is left and what
-- has been written by then all follow from one way of the machine; flags choose what of it is
-- shown and kept.
namespace TapeMachine

open Machine

namespace Machine

variable {program : Program} {limit : Option Int} {machine : Machine} {rule : Rule}
  {cause : MachineError} {ending : Ending}

theorem lookup_inside_error (inside : machine.head < machine.tape.cells.length)
    (missing : machine.lookup program = .error cause) : ∃ symbol,
      cause = .undefined machine.state symbol := by
  have stepped : machine.step program = .error cause := step_eq_error_iff.mpr (.inl missing)
  rw [step_inside program inside] at stepped
  split at stepped
  · cases stepped
    exact ⟨_,rfl⟩
  · rename_i rule picked
    -- With a rule to be found the lookup would not have failed.
    have read : machine.headed.read = .ok machine.tape.cells[machine.head] :=
      (Tape.Headed.read_eq_ok_iff _ _).mpr (List.getElem?_eq_getElem inside)
    simp only [lookup,symbol,read,picked] at missing
    cases missing

theorem apply_inside_error (inside : machine.head < machine.tape.cells.length)
    (failed : machine.apply program rule = .error cause) :
    cause = .leftOfTape rule.next (machine.steps+1) := by
  cases beside : rule.direction.beside? machine.head with
  | none =>
    rw [apply_left program beside] at failed
    cases failed
    rfl
  | some place =>
    obtain ⟨next,done,_⟩ := apply_inside program beside inside
    rw [done] at failed
    cases failed

end Machine

def RunResult.bare (result : RunResult) : RunResult := { result with history := [] }

namespace Interpreter

variable {interpreter other : Interpreter} {run : Run} {fresh : Machine} {sink : List Emission}
  {outcome : Except RunError RunResult}

def Allows (interpreter : Interpreter) (count : Nat) : Prop :=
  ∀ most ∈ interpreter.limit, (count : Int) < most

theorem reached?_last {last : Machine} {moments : List Moment} (started : Fresh run fresh)
    (course : Course interpreter.program fresh moments last) :
    reached? interpreter.limit last.steps = none ↔ interpreter.Allows moments.length := by
  rw [reached?_eq_none_iff,started.counted course]
  rfl

theorem Allows.within {moments : List Moment} (room : interpreter.Allows moments.length) :
    ∀ most ∈ interpreter.limit, moments.length ≤ most.toNat := by
  intro most given
  have below := room most given
  omega

theorem returns_iff_halted (started : Fresh run fresh) {result : RunResult} :
    interpreter.ComesTo run sink (.ok result) ↔ ∃ moments last,
      Course interpreter.program fresh moments last ∧ last.halted = true ∧
      (∀ most ∈ interpreter.limit, (moments.length : Int) ≤ most) ∧
      sink = interpreter.shown (told run moments ++ Ending.emissions (.halted last)) ∧
      result = ⟨run,last.state,last.tape.cells,last.head,last.steps,interpreter.kept moments⟩ := by
  rw [comesTo_iff started]
  constructor
  · rintro ⟨moments,last,ending,course,ends,within,written,same⟩
    cases ends with
    | halted stopped =>
      cases same
      refine ⟨moments,last,course,stopped,?_,written,rfl⟩
      intro most given
      have enough := within most given
      have some : moments ≠ [] := by
        rintro rfl
        cases course
        simp [started.running] at stopped
      have positive := List.length_pos_iff.mpr some
      omega
    | _ => cases same
  · rintro ⟨moments,last,course,stopped,within,rfl,rfl⟩
    refine ⟨moments,last,_,course,.halted stopped,?_,rfl,rfl⟩
    intro most given
    have enough := within most given
    omega

theorem lacks_iff_undefined (started : Fresh run fresh) (filled : run.tape ≠ [])
    {state symbol : String} :
    interpreter.ComesTo run sink (.error (.machine (.undefined state symbol))) ↔ ∃ moments last,
      Course interpreter.program fresh moments last ∧ last.halted = false ∧
      interpreter.Allows moments.length ∧
      last.lookup interpreter.program = .error (.undefined state symbol) ∧
      sink = interpreter.shown (told run moments ++ [.flushed]) := by
  rw [comesTo_iff started]
  constructor
  · rintro ⟨moments,last,ending,course,ends,_,written,same⟩
    have inside := course.inside fun _ => started.inside filled
    cases ends with
    | stuck running clear missing =>
      cases same
      exact ⟨moments,last,course,running,(reached?_last started course).mp clear,missing,written⟩
    | refused running clear found failed =>
      cases same
      cases apply_inside_error (inside running) failed
    | _ => cases same
  · rintro ⟨moments,last,course,running,room,missing,rfl⟩
    exact ⟨moments,last,_,course,.stuck running ((reached?_last started course).mpr room) missing,
      room.within,rfl,rfl⟩

theorem leaves_iff_refused (started : Fresh run fresh) (filled : run.tape ≠ []) {state : String}
    {step : Nat} :
    interpreter.ComesTo run sink (.error (.machine (.leftOfTape state step))) ↔
      ∃ moments last rule, Course interpreter.program fresh moments last ∧ last.halted = false ∧
        interpreter.Allows moments.length ∧ last.lookup interpreter.program = .ok rule ∧
        last.apply interpreter.program rule = .error (.leftOfTape state step) ∧
        sink = interpreter.shown (told run moments ++ (last.moment rule).emissions) := by
  rw [comesTo_iff started]
  constructor
  · rintro ⟨moments,last,ending,course,ends,_,written,same⟩
    have inside := course.inside fun _ => started.inside filled
    cases ends with
    | stuck running clear missing =>
      cases same
      obtain ⟨symbol,other⟩ := lookup_inside_error (inside running) missing
      cases other
    | @refused rule _ running clear found failed =>
      cases same
      exact ⟨moments,last,rule,course,running,(reached?_last started course).mp clear,found,failed,
        written⟩
    | _ => cases same
  · rintro ⟨moments,last,rule,course,running,room,found,failed,rfl⟩
    exact ⟨moments,last,_,course,
      .refused running ((reached?_last started course).mpr room) found failed,room.within,rfl,rfl⟩

theorem stops_iff_limited (started : Fresh run fresh) {most : Int} {state : String} :
    interpreter.ComesTo run sink (.error (.stepLimit most state)) ↔ ∃ moments last,
      Course interpreter.program fresh moments last ∧ last.halted = false ∧
      interpreter.limit = some most ∧ moments.length = most.toNat ∧ last.state = state ∧
      sink = interpreter.shown (told run moments ++ [.flushed]) := by
  rw [comesTo_iff started]
  constructor
  · rintro ⟨moments,last,ending,course,ends,within,written,same⟩
    cases ends with
    | limited running reached =>
      cases same
      obtain ⟨given,used⟩ := reached?_eq_some_iff.mp reached
      have enough := within most given
      rw [started.counted course] at used
      exact ⟨moments,last,course,running,given,by omega,rfl,written⟩
    | _ => cases same
  · rintro ⟨moments,last,course,running,given,count,rfl,rfl⟩
    have reached : reached? interpreter.limit last.steps = some most := by
      rw [reached?_eq_some_iff,started.counted course]
      exact ⟨given,by omega⟩
    refine ⟨moments,last,_,course,.limited running reached,?_,rfl,rfl⟩
    intro bound same
    cases given.symm.trans same
    omega

theorem fails_otherwise_never (started : Fresh run fresh) (filled : run.tape ≠ [])
    {cause : RunError} (comes : interpreter.ComesTo run sink (.error cause)) :
    cause ≠ .noTape ∧ cause ≠ .machine .offTape := by
  obtain ⟨moments,last,ending,course,ends,_,_,failed⟩ := (comesTo_iff started).mp comes
  obtain ⟨noTape,offTape⟩ := ends.error_of_inside (course.inside fun _ => started.inside filled)
  have same := Execution.result_eq_error_iff.mp failed.symm
  simp only [same,ne_eq,Option.some.injEq] at noTape offTape
  exact ⟨noTape,offTape⟩

theorem bare_result (execution : Execution) (keepHistory : Bool) :
    (execution.result keepHistory).map RunResult.bare = execution.result false := by
  unfold Execution.result
  cases execution.ending <;> rfl

theorem ComesTo.reflagged (comes : interpreter.ComesTo run sink outcome)
    (program : other.program = interpreter.program) (limit : other.limit = interpreter.limit) :
    ∃ sink' outcome', other.ComesTo run sink' outcome' ∧
      outcome'.map RunResult.bare = outcome.map RunResult.bare ∧
      (other.traces = interpreter.traces → sink' = sink) ∧
      (other.keepsHistory = interpreter.keepsHistory → outcome' = outcome) := by
  obtain ⟨execution,executed,rfl,rfl⟩ := comesTo_iff_executed.mp comes
  rw [← program,← limit] at executed
  refine ⟨_,_,comesTo_iff_executed.mpr ⟨execution,executed,rfl,rfl⟩,?_,?_,?_⟩
  · rw [bare_result,bare_result]
  · intro traces
    simp [shown,traces]
  · intro keeps
    rw [keeps]

structure TracesCourse (interpreter : Interpreter) (run : Run) (fresh : Machine) : Prop where
  steps : ∀ moments, told run moments = .written (run.text ++ "\n") :: moments.flatMap fun moment =>
    [.written (moment.rule.text ++ "\n" ++ drawTape moment.cells moment.head),.flushed]
  returns : ∀ sink result, interpreter.ComesTo run sink (.ok result) ↔ ∃ moments last,
    Course interpreter.program fresh moments last ∧ last.halted = true ∧
    (∀ most ∈ interpreter.limit, (moments.length : Int) ≤ most) ∧
    sink = interpreter.shown (told run moments ++
      [.written (drawTape last.tape.cells last.head),
        .written (" -- HALT -- with " ++ last.state ++ "\n\n"),.flushed]) ∧
    result = ⟨run,last.state,last.tape.cells,last.head,last.steps,interpreter.kept moments⟩
  lacks : ∀ sink state symbol,
    interpreter.ComesTo run sink (.error (.machine (.undefined state symbol))) ↔ ∃ moments last,
      Course interpreter.program fresh moments last ∧ last.halted = false ∧
      interpreter.Allows moments.length ∧
      last.lookup interpreter.program = .error (.undefined state symbol) ∧
      sink = interpreter.shown (told run moments ++ [.flushed])
  stops : ∀ sink most state, interpreter.ComesTo run sink (.error (.stepLimit most state)) ↔
    ∃ moments last, Course interpreter.program fresh moments last ∧ last.halted = false ∧
      interpreter.limit = some most ∧ moments.length = most.toNat ∧ last.state = state ∧
      sink = interpreter.shown (told run moments ++ [.flushed])
  leaves : ∀ sink state step,
    interpreter.ComesTo run sink (.error (.machine (.leftOfTape state step))) ↔
      ∃ moments last rule, Course interpreter.program fresh moments last ∧ last.halted = false ∧
        interpreter.Allows moments.length ∧ last.lookup interpreter.program = .ok rule ∧
        last.apply interpreter.program rule = .error (.leftOfTape state step) ∧
        sink = interpreter.shown (told run moments ++
          [.written (rule.text ++ "\n" ++ drawTape last.tape.cells last.head),.flushed])
  otherwise : ∀ sink cause, interpreter.ComesTo run sink (.error cause) →
    cause ≠ .noTape ∧ cause ≠ .machine .offTape
  unique : ∀ sink sink' outcome outcome', interpreter.ComesTo run sink outcome →
    interpreter.ComesTo run sink' outcome' → sink = sink' ∧ outcome = outcome'
  flags : ∀ (other : Interpreter), other.program = interpreter.program →
    other.limit = interpreter.limit → ∀ sink outcome, interpreter.ComesTo run sink outcome →
    ∃ sink' outcome', other.ComesTo run sink' outcome' ∧
      outcome'.map RunResult.bare = outcome.map RunResult.bare ∧
      (other.traces = interpreter.traces → sink' = sink) ∧
      (other.keepsHistory = interpreter.keepsHistory → outcome' = outcome)
  silent : interpreter.traces = false → ∀ sink outcome, interpreter.ComesTo run sink outcome →
    sink = []
  executed : ∀ execution, interpreter.program.ComesTo interpreter.limit run execution →
    ∃ sink, interpreter.ComesTo run sink (execution.result interpreter.keepsHistory) ∧
      (interpreter.traces = true → emittedText sink = execution.trace ∧
        emittedFlushes sink = execution.flushes ∧
        execution.flushes = execution.moments.length+1)

theorem executed_traced (started : Fresh run fresh) {execution : Execution}
    (executed : interpreter.program.ComesTo interpreter.limit run execution) :
    ∃ sink, interpreter.ComesTo run sink (execution.result interpreter.keepsHistory) ∧
      (interpreter.traces = true → emittedText sink = execution.trace ∧
        emittedFlushes sink = execution.flushes ∧
        execution.flushes = execution.moments.length+1) := by
  refine ⟨_,comesTo_iff_executed.mpr ⟨execution,executed,rfl,rfl⟩,?_⟩
  intro traces
  simp only [shown,traces,if_true,execution.emissions_text,execution.emissions_flushes,true_and]
  obtain ⟨_,last,_,ends,_⟩ := (Program.comesTo_iff started).mp executed
  unfold Execution.flushes
  generalize execution.ending = ending at ends
  cases ends <;> rfl

theorem traces_course (interpreter : Interpreter) (run : Run) (filled : run.tape ≠ []) :
    ∃ fresh, Machine.start run = .ok fresh ∧ interpreter.TracesCourse run fresh := by
  obtain ⟨fresh,started⟩ := fresh_of run filled
  refine ⟨fresh,started.started,?_⟩
  exact {
    steps := fun _ => rfl
    returns := by
      intro sink result
      rw [returns_iff_halted started]
      rfl
    lacks := fun _ _ _ => lacks_iff_undefined started filled
    stops := fun _ _ _ => stops_iff_limited started
    leaves := fun _ _ _ => leaves_iff_refused started filled
    otherwise := fun _ _ => fails_otherwise_never started filled
    unique := fun _ _ _ _ => ComesTo.functional
    flags := fun _ program limit _ _ comes => comes.reflagged program limit
    silent := by
      intro off sink outcome comes
      obtain ⟨execution,_,rfl,_⟩ := comesTo_iff_executed.mp comes
      simp [shown,off]
    executed := fun _ => executed_traced started }

def straying : Interpreter where
  program := .of [⟨"A","0","1",.right,"B"⟩,⟨"B","0","2",.left,"A"⟩,⟨"A","1","x",.left,"A"⟩] [] []
  limit := some 3
  traces := true
  keepsHistory := false

theorem traces_course_straying : ["0"] ≠ [] ∧
    ∃ fresh, Machine.start ⟨["0"],"A"⟩ = .ok fresh ∧
      straying.TracesCourse ⟨["0"],"A"⟩ fresh ∧
      straying.ComesTo ⟨["0"],"A"⟩ [.written "#run [ 0 ] A\n",
          .written "A 0 1 -> B\n[ 0 ]\n  ^\n",.flushed,
          .written "B 0 2 <- A\n[ 1 0 ]\n    ^\n",.flushed,
          .written "A 1 x <- A\n[ 1 2 ]\n  ^\n",.flushed]
        (.error (.machine (.leftOfTape "A" 3))) := by
  obtain ⟨fresh,started,traced⟩ := traces_course straying ⟨["0"],"A"⟩ (by simp)
  exact ⟨by simp,fresh,started,traced,0,rfl⟩

end Interpreter

end TapeMachine
