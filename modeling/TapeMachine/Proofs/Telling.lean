import TapeMachine.Interpreter
import TapeMachine.Proofs.EmptyTapes
import TapeMachine.Proofs.Patience

-- What an interpreter writes is the computation and nothing else. A session that has begun on a
-- run tells the moments behind it; one more rule keeps that up, and so does the end of the run.
-- Flags decide what is written and kept, never where the machine goes.
namespace TapeMachine

theorem emittedText_append (first rest : List Emission) :
    emittedText (first ++ rest) = emittedText first ++ emittedText rest := by
  simp [emittedText,String.join_append]

theorem emittedFlushes_append (first rest : List Emission) :
    emittedFlushes (first ++ rest) = emittedFlushes first + emittedFlushes rest :=
  List.count_append

def Moment.emissions (moment : Moment) : List Emission := [.written moment.text,.flushed]

def Ending.emissions : Ending → List Emission
  | .halted machine =>
    let state := machine.state
    [.written (drawTape machine.tape.cells machine.head),
      .written s!" -- HALT -- with {state}\n\n",.flushed]
  | .refused moment _ => moment.emissions
  | _ => [.flushed]

def told (run : Run) (moments : List Moment) : List Emission :=
  .written (run.text ++ "\n") :: moments.flatMap Moment.emissions

def Execution.emissions (execution : Execution) : List Emission :=
  match execution.ending with
  | .noTape => []
  | ending => told execution.run execution.moments ++ ending.emissions

theorem told_snoc (run : Run) (moments : List Moment) (moment : Moment) :
    told run (moments ++ [moment]) = told run moments ++ moment.emissions := by
  simp [told]

theorem emittedText_told (run : Run) (moments : List Moment) :
    emittedText (told run moments) =
      run.text ++ "\n" ++ String.join (moments.map Moment.text) := by
  have moments_text : emittedText (moments.flatMap Moment.emissions) =
      String.join (moments.map Moment.text) := by
    induction moments with
    | nil => rfl
    | cons moment moments ih =>
      rw [List.flatMap_cons,emittedText_append,ih,List.map_cons,String.join_cons]
      simp [Moment.emissions,emittedText,Emission.text]
  rw [told,← List.singleton_append,emittedText_append,moments_text]
  simp [emittedText,Emission.text]

theorem emittedFlushes_told (run : Run) (moments : List Moment) :
    emittedFlushes (told run moments) = moments.length := by
  have moments_flushes : emittedFlushes (moments.flatMap Moment.emissions) = moments.length := by
    induction moments with
    | nil => rfl
    | cons moment moments ih =>
      rw [List.flatMap_cons,emittedFlushes_append,ih,List.length_cons,Nat.add_comm]
      rfl
  rw [told,← List.singleton_append,emittedFlushes_append,moments_flushes]
  exact Nat.zero_add _

theorem Execution.emissions_text (execution : Execution) :
    emittedText execution.emissions = execution.trace := by
  obtain ⟨run,moments,ending⟩ := execution
  cases ending with
  | noTape => rfl
  | _ =>
    simp only [emissions,emittedText_append,emittedText_told,trace]
    simp [Ending.emissions,Moment.emissions,emittedText,Emission.text,String.append_assoc]

theorem Execution.emissions_flushes (execution : Execution) :
    emittedFlushes execution.emissions = execution.flushes := by
  obtain ⟨run,moments,ending⟩ := execution
  cases ending with
  | noTape => rfl
  | _ =>
    simp only [emissions,emittedFlushes_append,emittedFlushes_told,flushes]
    rfl

namespace Interpreter

open Machine

variable {interpreter : Interpreter} {run : Run} {fresh : Machine} {before : List Emission}
  {past : List Moment} {session : Session}

def shown (interpreter : Interpreter) (emissions : List Emission) : List Emission :=
  if interpreter.traces then emissions else []

def kept (interpreter : Interpreter) (moments : List Moment) : List Moment :=
  if interpreter.keepsHistory then moments else []

theorem shown_append (interpreter : Interpreter) (first rest : List Emission) :
    interpreter.shown (first ++ rest) = interpreter.shown first ++ interpreter.shown rest := by
  unfold shown
  split <;> rfl

theorem kept_append (interpreter : Interpreter) (first rest : List Moment) :
    interpreter.kept (first ++ rest) = interpreter.kept first ++ interpreter.kept rest := by
  unfold kept
  split <;> rfl

theorem emit_eq (interpreter : Interpreter) (emission : Emission) (session : Session) :
    interpreter.emit emission session =
      { session with sink := session.sink ++ interpreter.shown [emission] } := by
  unfold emit shown
  split <;> simp

theorem record_eq (interpreter : Interpreter) (moment : Moment) (session : Session) :
    interpreter.record moment session =
      { session with
        history := session.history ++ interpreter.kept [moment]
        sink := session.sink ++ interpreter.shown [.written moment.text] } := by
  unfold record kept
  rw [emit_eq]
  split <;> simp

structure Session.Tells (interpreter : Interpreter) (run : Run) (before : List Emission)
    (past : List Moment) (session : Session) : Prop where
  history : session.history = interpreter.kept past
  sink : session.sink = before ++ interpreter.shown (told run past)

theorem advance_of_step {next : Machine} {rule : Rule}
    (tells : session.Tells interpreter run before past)
    (clear : reached? interpreter.limit session.machine.steps = none)
    (stepped : session.machine.step interpreter.program = .ok (rule,next)) :
    ∃ after, interpreter.advance session = (none,after) ∧ after.machine = next ∧
      after.Tells interpreter run before (past ++ [session.machine.moment rule]) := by
  obtain ⟨found,applied⟩ := step_eq_ok_iff.mp stepped
  refine ⟨_,by simp only [advance,clear,found,applied,record_eq,emit_eq]; rfl,rfl,?_,?_⟩
  · rw [kept_append,← tells.history]
    rfl
  · rw [told_snoc,shown_append,← List.append_assoc,← tells.sink]
    simp only [List.append_assoc,← shown_append]
    rfl

theorem advanceAll_of_step {next : Machine} {rule : Rule}
    (tells : session.Tells interpreter run before past) (running : session.machine.halted = false)
    (clear : reached? interpreter.limit session.machine.steps = none)
    (stepped : session.machine.step interpreter.program = .ok (rule,next)) :
    ∃ after, after.machine = next ∧
      after.Tells interpreter run before (past ++ [session.machine.moment rule]) ∧
      interpreter.advanceAll 0 session = none ∧
      ∀ fuel, interpreter.advanceAll (fuel+1) session = interpreter.advanceAll fuel after := by
  obtain ⟨after,advanced,same,told⟩ := advance_of_step tells clear stepped
  refine ⟨after,same,told,by simp [advanceAll,running,advanced],?_⟩
  intro fuel
  rw [advanceAll.eq_def]
  simp [running,advanced]

theorem advanceAll_of_ends {ending : Ending} (tells : session.Tells interpreter run before past)
    (ends : session.machine.Ends interpreter.program interpreter.limit ending) (fuel : Nat) :
    (interpreter.advanceAll fuel session).map (interpreter.conclude run) =
      some (before ++ interpreter.shown (Execution.emissions ⟨run,past,ending⟩),
        Execution.result interpreter.keepsHistory ⟨run,past,ending⟩) := by
  obtain ⟨history,sink⟩ := tells
  unfold advanceAll
  cases ends with
  | halted stopped =>
    simp [stopped,conclude,emit_eq,sink,history,kept,Execution.emissions,Execution.result,
      Ending.emissions,← shown_append,List.append_assoc]
  | limited running reached =>
    simp [running,advance,reached,conclude,emit_eq,sink,Execution.emissions,Execution.result,
      Ending.emissions,← shown_append,List.append_assoc]
  | stuck running clear missing =>
    simp [running,advance,clear,missing,conclude,emit_eq,sink,Execution.emissions,Execution.result,
      Ending.emissions,← shown_append,List.append_assoc]
  | refused running clear found failed =>
    simp [running,advance,clear,found,failed,conclude,record_eq,emit_eq,sink,Execution.emissions,
      Execution.result,Ending.emissions,Moment.emissions,moment,← shown_append,List.append_assoc]

-- A session keeps pace with the machine: as long as it has told the past, what it comes to is
-- what the execution of that machine comes to.
theorem advanceAll_eq (tells : session.Tells interpreter run before past) (fuel : Nat) :
    (interpreter.advanceAll fuel session).map (interpreter.conclude run) =
      (session.machine.moments interpreter.program interpreter.limit fuel past.reverse).map
        fun (moments,ending) =>
          (before ++ interpreter.shown (Execution.emissions ⟨run,moments,ending⟩),
            Execution.result interpreter.keepsHistory ⟨run,moments,ending⟩) := by
  induction fuel generalizing session past with
  | zero =>
    rcases ends_or_steps interpreter.program interpreter.limit session.machine with
      ⟨ending,ends⟩ | ⟨running,clear,rule,next,stepped⟩
    · rw [advanceAll_of_ends tells ends,moments_of_ends ends]
      simp
    · obtain ⟨_,_,_,none,_⟩ := advanceAll_of_step tells running clear stepped
      rw [none,(moments_of_step running clear stepped _).1]
      rfl
  | succ fuel ih =>
    rcases ends_or_steps interpreter.program interpreter.limit session.machine with
      ⟨ending,ends⟩ | ⟨running,clear,rule,next,stepped⟩
    · rw [advanceAll_of_ends tells ends,moments_of_ends ends]
      simp
    · obtain ⟨after,rfl,told,_,onward⟩ := advanceAll_of_step tells running clear stepped
      rw [onward,(moments_of_step running clear stepped _).2,ih told]
      simp

theorem interpret_eq (interpreter : Interpreter) (patience : Nat) (run : Run)
    (before : List Emission) : interpreter.interpret patience run before =
      (interpreter.program.execute interpreter.limit patience run).map fun execution =>
        (before ++ interpreter.shown execution.emissions,
          execution.result interpreter.keepsHistory) := by
  unfold interpret Program.execute
  cases started : start run with
  | error cause => simp [Execution.emissions,Execution.result,shown]
  | ok machine =>
    have begun : (interpreter.emit (.written (run.text ++ "\n")) ⟨machine,[],before⟩).Tells
        interpreter run before [] := by
      rw [emit_eq]
      exact ⟨by simp [kept],by simp [told]⟩
    have same : (interpreter.emit (.written (run.text ++ "\n")) ⟨machine,[],before⟩).machine =
        machine := by
      rw [emit_eq]
    have all := advanceAll_eq begun (fuelFor interpreter.limit patience)
    rw [same] at all
    simp only [all,Option.map_map]
    rfl

def ComesTo (interpreter : Interpreter) (run : Run) (sink : List Emission)
    (outcome : Except RunError RunResult) : Prop :=
  ∃ patience, interpreter.interpret patience run [] = some (sink,outcome)

theorem interpret_mono {patience more : Nat} {outcome : List Emission × Except RunError RunResult}
    (ended : interpreter.interpret patience run before = some outcome) (grows : patience ≤ more) :
    interpreter.interpret more run before = some outcome := by
  rw [interpret_eq,Option.map_eq_some_iff] at ended ⊢
  obtain ⟨execution,executed,same⟩ := ended
  exact ⟨execution,Program.execute_mono executed grows,same⟩

theorem ComesTo.functional {sink' : List Emission} {outcome outcome' : Except RunError RunResult}
    (comes : interpreter.ComesTo run sink outcome) (comes' : interpreter.ComesTo run sink' outcome') :
    sink = sink' ∧ outcome = outcome' := by
  obtain ⟨patience,ended⟩ := comes
  obtain ⟨patience',ended'⟩ := comes'
  have one := interpret_mono ended (Nat.le_max_left patience patience')
  have two := interpret_mono ended' (Nat.le_max_right patience patience')
  exact Prod.mk.inj (Option.some.inj (one.symm.trans two))

theorem comesTo_iff_executed {sink : List Emission} {outcome : Except RunError RunResult} :
    interpreter.ComesTo run sink outcome ↔ ∃ execution,
      interpreter.program.ComesTo interpreter.limit run execution ∧
      sink = interpreter.shown execution.emissions ∧
      outcome = execution.result interpreter.keepsHistory := by
  simp only [ComesTo,Program.ComesTo,interpret_eq,Option.map_eq_some_iff,List.nil_append,
    Prod.mk.injEq]
  constructor
  · rintro ⟨patience,execution,executed,rfl,rfl⟩
    exact ⟨execution,⟨patience,executed⟩,rfl,rfl⟩
  · rintro ⟨execution,⟨patience,executed⟩,rfl,rfl⟩
    exact ⟨patience,execution,executed,rfl,rfl⟩

theorem emissions_of_ends {last : Machine} {ending : Ending}
    (ends : last.Ends interpreter.program interpreter.limit ending) (moments : List Moment) :
    Execution.emissions ⟨run,moments,ending⟩ = told run moments ++ ending.emissions := by
  cases ends <;> rfl

theorem comesTo_iff (started : Fresh run fresh) {sink : List Emission}
    {outcome : Except RunError RunResult} :
    interpreter.ComesTo run sink outcome ↔ ∃ moments last ending,
      Course interpreter.program fresh moments last ∧
      last.Ends interpreter.program interpreter.limit ending ∧
      (∀ most ∈ interpreter.limit, moments.length ≤ most.toNat) ∧
      sink = interpreter.shown (told run moments ++ ending.emissions) ∧
      outcome = Execution.result interpreter.keepsHistory ⟨run,moments,ending⟩ := by
  rw [comesTo_iff_executed]
  constructor
  · rintro ⟨⟨ran,moments,ending⟩,comes,rfl,rfl⟩
    obtain ⟨rfl,last,course,ends,within⟩ := (Program.comesTo_iff started).mp comes
    exact ⟨moments,last,ending,course,ends,within,by rw [emissions_of_ends ends],rfl⟩
  · rintro ⟨moments,last,ending,course,ends,within,rfl,rfl⟩
    exact ⟨⟨run,moments,ending⟩,(Program.comesTo_iff started).mpr ⟨rfl,last,course,ends,within⟩,
      by rw [emissions_of_ends ends],rfl⟩

end Interpreter

end TapeMachine
