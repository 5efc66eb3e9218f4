import Mathlib.Algebra.GroupWithZero.Nat
import Mathlib.Data.List.Basic
import TapeMachine.Proofs.Telling

-- All the runs of a program, one after another into one sink. Each comes to what it comes to
-- alone, up to the first that fails; whatever the order, they do not touch each other.
namespace TapeMachine

namespace Interpreter

variable {interpreter other : Interpreter} {patience more : Nat} {run : Run} {runs : List Run}
  {before sink : List Emission}

structure Alike (interpreter other : Interpreter) : Prop where
  program : interpreter.program.Alike other.program
  limit : other.limit = interpreter.limit
  traces : other.traces = interpreter.traces
  keepsHistory : other.keepsHistory = interpreter.keepsHistory

theorem Alike.interpret (alike : interpreter.Alike other) (patience : Nat) (run : Run)
    (before : List Emission) :
    other.interpret patience run before = interpreter.interpret patience run before := by
  simp only [interpret_eq,alike.program.execute,alike.limit,shown,alike.traces,alike.keepsHistory]

theorem Alike.interpretRuns (alike : interpreter.Alike other) (patience : Nat) (runs : List Run)
    (before : List Emission) :
    other.interpretRuns patience runs before = interpreter.interpretRuns patience runs before := by
  induction runs generalizing before with
  | nil => rfl
  | cons run runs ih => simp only [Interpreter.interpretRuns,alike.interpret,ih]

-- What is in the sink already stays there, and has no part in what is added.
theorem interpret_after (interpreter : Interpreter) (patience : Nat) (run : Run)
    (before : List Emission) : interpreter.interpret patience run before =
      (interpreter.interpret patience run []).map fun (sink,outcome) =>
        (before ++ sink,outcome) := by
  simp only [interpret_eq,Option.map_map]
  rfl

theorem interpretRuns_cons_error {cause : RunError}
    (failed : interpreter.interpret patience run [] = some (sink,.error cause)) :
    interpreter.interpretRuns patience (run :: runs) before =
      some (before ++ sink,.error cause) := by
  simp [interpretRuns,interpret_after _ _ _ before,failed]

theorem interpretRuns_cons_ok {result : RunResult}
    (succeeded : interpreter.interpret patience run [] = some (sink,.ok result)) :
    interpreter.interpretRuns patience (run :: runs) before =
      (interpreter.interpretRuns patience runs (before ++ sink)).map fun (last,results) =>
        (last,results.map (result :: ·)) := by
  simp [interpretRuns,interpret_after _ _ _ before,succeeded]

theorem interpretRuns_mono {outcome : List Emission × Except RunError (List RunResult)}
    (ended : interpreter.interpretRuns patience runs before = some outcome)
    (grows : patience ≤ more) : interpreter.interpretRuns more runs before = some outcome := by
  induction runs generalizing before outcome with
  | nil => exact ended
  | cons run runs ih =>
    cases first : interpreter.interpret patience run [] with
    | none => simp [interpretRuns,interpret_after _ _ _ before,first] at ended
    | some comes =>
      obtain ⟨sink,⟨cause⟩ | ⟨result⟩⟩ := comes
      · rw [interpretRuns_cons_error first] at ended
        rw [interpretRuns_cons_error (interpret_mono first grows)]
        exact ended
      · rw [interpretRuns_cons_ok first,Option.map_eq_some_iff] at ended
        rw [interpretRuns_cons_ok (interpret_mono first grows),Option.map_eq_some_iff]
        obtain ⟨later,ended,same⟩ := ended
        exact ⟨later,ih ended,same⟩

theorem interpretRuns_eq (interpreter : Interpreter) (patience : Nat) (runs : List Run)
    (before : List Emission) : interpreter.interpretRuns patience runs before =
      (Program.executeAll.go interpreter.program interpreter.limit patience runs).map
        fun executions =>
          (before ++ interpreter.shown (executions.flatMap Execution.emissions),
            executions.mapM (Execution.result interpreter.keepsHistory)) := by
  induction runs generalizing before with
  | nil => simp [interpretRuns,Program.executeAll.go,shown,pure,Except.pure]
  | cons run runs ih =>
    unfold Program.executeAll.go
    simp only [interpretRuns,interpret_eq]
    cases interpreter.program.execute interpreter.limit patience run with
    | none => rfl
    | some execution =>
      simp only [Option.map_some]
      cases comes : execution.result interpreter.keepsHistory with
      | error cause =>
        have failed := Execution.result_eq_error_iff.mp comes
        simp [failed,comes,bind,Except.bind]
      | ok result =>
        have succeeded : execution.ending.error? = none := by
          by_contra failing
          obtain ⟨cause,failed⟩ := Option.ne_none_iff_exists'.mp failing
          rw [Execution.result_eq_error_iff.mpr failed] at comes
          cases comes
        simp only [succeeded,Option.isSome_none,ih,Option.map_map]
        simp [Function.comp_def,comes,shown_append,bind,Except.bind,pure,Except.pure,
          Except.map]

def AllComeTo (interpreter : Interpreter) (sink : List Emission)
    (outcome : Except RunError (List RunResult)) : Prop :=
  ∃ patience, interpreter.interpretAll patience [] = some (sink,outcome)

theorem AllComeTo.functional {sink' : List Emission}
    {outcome outcome' : Except RunError (List RunResult)}
    (comes : interpreter.AllComeTo sink outcome) (comes' : interpreter.AllComeTo sink' outcome') :
    sink = sink' ∧ outcome = outcome' := by
  obtain ⟨patience,ended⟩ := comes
  obtain ⟨patience',ended'⟩ := comes'
  have one := interpretRuns_mono ended (Nat.le_max_left patience patience')
  have two := interpretRuns_mono ended' (Nat.le_max_right patience patience')
  exact Prod.mk.inj (Option.some.inj (one.symm.trans two))

theorem interpretAll_eq (interpreter : Interpreter) (patience : Nat) :
    interpreter.interpretAll patience [] =
      (interpreter.program.executeAll interpreter.limit patience).map fun executions =>
        (interpreter.shown (executions.flatMap Execution.emissions),
          executions.mapM (Execution.result interpreter.keepsHistory)) :=
  interpretRuns_eq interpreter patience interpreter.program.runs []

theorem allComeTo_of_executed {executions : List Execution}
    (executed : interpreter.program.executeAll interpreter.limit patience = some executions) :
    interpreter.AllComeTo (interpreter.shown (executions.flatMap Execution.emissions))
      (executions.mapM (Execution.result interpreter.keepsHistory)) := by
  refine ⟨patience,?_⟩
  rw [interpretAll_eq,executed]
  rfl

variable {alone : Run → List Emission × RunResult}

def Succeed (interpreter : Interpreter) (alone : Run → List Emission × RunResult)
    (runs : List Run) : Prop :=
  ∀ run ∈ runs, interpreter.ComesTo run (alone run).1 (.ok (alone run).2)

theorem Succeed.together (succeed : interpreter.Succeed alone runs) :
    ∃ patience, ∀ run ∈ runs,
      interpreter.interpret patience run [] = some ((alone run).1,.ok (alone run).2) := by
  induction runs with
  | nil => exact ⟨0,by simp⟩
  | cons run runs ih =>
    obtain ⟨patience,first⟩ := succeed run List.mem_cons_self
    obtain ⟨patience',rest⟩ := ih fun run member => succeed run (List.mem_cons_of_mem _ member)
    refine ⟨max patience patience',?_⟩
    intro run member
    rcases List.mem_cons.mp member with rfl | later
    · exact interpret_mono first (Nat.le_max_left _ _)
    · exact interpret_mono (rest run later) (Nat.le_max_right _ _)

theorem interpretRuns_append (succeed : ∀ run ∈ runs,
      interpreter.interpret patience run [] = some ((alone run).1,.ok (alone run).2))
    {rest : List Run} {outcome : Except RunError (List RunResult)}
    (ended : interpreter.interpretRuns patience rest
      (before ++ runs.flatMap fun run => (alone run).1) = some (sink,outcome)) :
    interpreter.interpretRuns patience (runs ++ rest) before =
      some (sink,outcome.map ((runs.map fun run => (alone run).2) ++ ·)) := by
  induction runs generalizing before with
  | nil =>
    rw [List.flatMap_nil,List.append_nil] at ended
    rw [List.nil_append,ended]
    cases outcome <;> rfl
  | cons run runs ih =>
    rw [List.flatMap_cons,← List.append_assoc] at ended
    rw [List.cons_append,interpretRuns_cons_ok (succeed run List.mem_cons_self),
      ih (fun run member => succeed run (List.mem_cons_of_mem _ member)) ended]
    cases outcome <;> rfl

theorem allComeTo_of_succeed (succeed : interpreter.Succeed alone interpreter.program.runs) :
    interpreter.AllComeTo (interpreter.program.runs.flatMap fun run => (alone run).1)
      (.ok (interpreter.program.runs.map fun run => (alone run).2)) := by
  obtain ⟨patience,together⟩ := succeed.together
  have all : interpreter.interpretRuns patience (interpreter.program.runs ++ []) [] = _ :=
    interpretRuns_append together rfl
  rw [List.append_nil] at all
  exact ⟨patience,by simpa [interpretAll,Except.map] using all⟩

theorem allComeTo_of_failure {earlier later : List Run} {cause : RunError}
    (order : interpreter.program.runs = earlier ++ run :: later)
    (succeed : interpreter.Succeed alone earlier)
    (failed : interpreter.ComesTo run sink (.error cause)) :
    interpreter.AllComeTo ((earlier.flatMap fun run => (alone run).1) ++ sink) (.error cause) := by
  obtain ⟨patience,together⟩ := succeed.together
  obtain ⟨patience',failed⟩ := failed
  refine ⟨max patience patience',?_⟩
  rw [interpretAll,order]
  exact interpretRuns_append
    (fun run member => interpret_mono (together run member) (Nat.le_max_left _ _))
    (interpretRuns_cons_error (interpret_mono failed (Nat.le_max_right _ _)))

theorem interpretRuns_split {outcome : Except RunError (List RunResult)}
    (ended : interpreter.interpretRuns patience runs before = some (sink,outcome)) :
    (∀ run ∈ runs, ∃ told result, interpreter.ComesTo run told (.ok result)) ∨
      ∃ earlier run later told cause, runs = earlier ++ run :: later ∧
        (∀ run ∈ earlier, ∃ told result, interpreter.ComesTo run told (.ok result)) ∧
        interpreter.ComesTo run told (.error cause) := by
  induction runs generalizing before sink outcome with
  | nil => exact .inl (by simp)
  | cons run runs ih =>
    cases first : interpreter.interpret patience run [] with
    | none => simp [interpretRuns,interpret_after _ _ _ before,first] at ended
    | some comes =>
      obtain ⟨told,⟨cause⟩ | ⟨result⟩⟩ := comes
      · exact .inr ⟨[],run,runs,told,cause,rfl,by simp,patience,first⟩
      · rw [interpretRuns_cons_ok first,Option.map_eq_some_iff] at ended
        obtain ⟨⟨_,_⟩,ended,_⟩ := ended
        have succeeds : ∃ told result, interpreter.ComesTo run told (.ok result) :=
          ⟨told,result,patience,first⟩
        rcases ih ended with all | ⟨earlier,failing,later,last,cause,rfl,some,failed⟩
        · exact .inl (List.forall_mem_cons.mpr ⟨succeeds,all⟩)
        · exact .inr ⟨run :: earlier,failing,later,last,cause,rfl,
            List.forall_mem_cons.mpr ⟨succeeds,some⟩,failed⟩

theorem exists_succeed (succeeding : ∀ run ∈ runs, ∃ told result,
    interpreter.ComesTo run told (.ok result)) : ∃ alone, interpreter.Succeed alone runs := by
  have inhabited : Nonempty RunResult := ⟨⟨⟨[],""⟩,"",[],0,0,[]⟩⟩
  choose! told result comes using succeeding
  exact ⟨fun run => (told run,result run),comes⟩

theorem returns_iff {results : List RunResult} :
    interpreter.AllComeTo sink (.ok results) ↔ ∃ alone,
      interpreter.Succeed alone interpreter.program.runs ∧
      sink = (interpreter.program.runs.flatMap fun run => (alone run).1) ∧
      results = interpreter.program.runs.map fun run => (alone run).2 := by
  constructor
  · intro comes
    obtain ⟨patience,ended⟩ := comes
    rcases interpretRuns_split ended with all | ⟨earlier,run,later,told,cause,order,some,failed⟩
    · obtain ⟨alone,succeed⟩ := exists_succeed all
      obtain ⟨written,same⟩ := AllComeTo.functional ⟨patience,ended⟩ (allComeTo_of_succeed succeed)
      exact ⟨alone,succeed,written,Except.ok.inj same⟩
    · obtain ⟨alone,succeed⟩ := exists_succeed some
      cases (AllComeTo.functional ⟨patience,ended⟩ (allComeTo_of_failure order succeed failed)).2
  · rintro ⟨alone,succeed,rfl,rfl⟩
    exact allComeTo_of_succeed succeed

theorem raises_iff {cause : RunError} :
    interpreter.AllComeTo sink (.error cause) ↔ ∃ earlier run later alone last,
      interpreter.program.runs = earlier ++ run :: later ∧ interpreter.Succeed alone earlier ∧
      interpreter.ComesTo run last (.error cause) ∧
      sink = (earlier.flatMap fun run => (alone run).1) ++ last := by
  constructor
  · intro comes
    obtain ⟨patience,ended⟩ := comes
    rcases interpretRuns_split ended with all | ⟨earlier,run,later,last,other,order,some,failed⟩
    · obtain ⟨alone,succeed⟩ := exists_succeed all
      cases (AllComeTo.functional ⟨patience,ended⟩ (allComeTo_of_succeed succeed)).2
    · obtain ⟨alone,succeed⟩ := exists_succeed some
      obtain ⟨written,same⟩ := AllComeTo.functional ⟨patience,ended⟩
        (allComeTo_of_failure order succeed failed)
      cases same
      exact ⟨earlier,run,later,alone,last,order,succeed,failed,written⟩
  · rintro ⟨earlier,run,later,alone,last,order,succeed,failed,rfl⟩
    exact allComeTo_of_failure order succeed failed

theorem interpretRuns_past_failure {earlier later : List Run} {cause : RunError}
    (failed : interpreter.interpret patience run [] = some (sink,.error cause)) :
    interpreter.interpretRuns patience (earlier ++ run :: later) before =
      interpreter.interpretRuns patience (earlier ++ [run]) before := by
  induction earlier generalizing before with
  | nil => rw [List.nil_append,List.nil_append,interpretRuns_cons_error failed,
      interpretRuns_cons_error failed]
  | cons first earlier ih => simp only [List.cons_append,interpretRuns,ih]

theorem AllComeTo.past_failure {earlier later later' : List Run} {cause : RunError}
    {all : List Emission} {outcome : Except RunError (List RunResult)}
    (alike : interpreter.Alike other)
    (order : interpreter.program.runs = earlier ++ run :: later)
    (order' : other.program.runs = earlier ++ run :: later')
    (failed : interpreter.ComesTo run sink (.error cause))
    (comes : interpreter.AllComeTo all outcome) : other.AllComeTo all outcome := by
  obtain ⟨patience,ended⟩ := comes
  obtain ⟨patience',failed⟩ := failed
  have failed := interpret_mono failed (Nat.le_max_right patience patience')
  have ended := interpretRuns_mono ended (Nat.le_max_left patience patience')
  refine ⟨max patience patience',?_⟩
  rw [order,interpretRuns_past_failure failed] at ended
  rw [interpretAll,order',alike.interpretRuns,interpretRuns_past_failure failed,ended]

theorem Alike.succeed (alike : interpreter.Alike other) (succeed : interpreter.Succeed alone runs) :
    other.Succeed alone runs := by
  intro run member
  obtain ⟨patience,ended⟩ := succeed run member
  exact ⟨patience,by rw [alike.interpret,ended]⟩

theorem AllComeTo.reordered {results : List RunResult} (alike : interpreter.Alike other)
    (order : other.program.runs.Perm interpreter.program.runs)
    (comes : interpreter.AllComeTo sink (.ok results)) : ∃ sink' results' result,
      other.AllComeTo sink' (.ok results') ∧ results'.Perm results ∧
      results = interpreter.program.runs.map result ∧
      results' = other.program.runs.map result := by
  obtain ⟨alone,succeed,rfl,rfl⟩ := returns_iff.mp comes
  have moved : other.Succeed alone other.program.runs :=
    alike.succeed fun run member => succeed run (order.mem_iff.mp member)
  exact ⟨_,_,fun run => (alone run).2,allComeTo_of_succeed moved,order.map _,rfl,rfl⟩

theorem emittedText_flatMap {α : Type} (told : α → List Emission) (items : List α)
    (last : List Emission) : emittedText (items.flatMap told ++ last) =
      String.join (items.map fun item => emittedText (told item)) ++ emittedText last := by
  induction items with
  | nil => rfl
  | cons item items ih =>
    rw [List.flatMap_cons,List.append_assoc,emittedText_append,ih,List.map_cons,String.join_cons,
      String.append_assoc]

theorem emittedFlushes_flatMap {α : Type} (told : α → List Emission) (items : List α)
    (last : List Emission) : emittedFlushes (items.flatMap told ++ last) =
      (items.map fun item => emittedFlushes (told item)).sum + emittedFlushes last := by
  induction items with
  | nil => exact (Nat.zero_add _).symm
  | cons item items ih =>
    rw [List.flatMap_cons,List.append_assoc,emittedFlushes_append,ih,List.map_cons,List.sum_cons,
      Nat.add_assoc]

structure Composes (interpreter : Interpreter) : Prop where
  returns : ∀ sink results, interpreter.AllComeTo sink (.ok results) ↔ ∃ alone,
    interpreter.Succeed alone interpreter.program.runs ∧
    sink = (interpreter.program.runs.flatMap fun run => (alone run).1) ∧
    results = interpreter.program.runs.map fun run => (alone run).2
  raises : ∀ sink cause, interpreter.AllComeTo sink (.error cause) ↔ ∃ earlier run later alone last,
    interpreter.program.runs = earlier ++ run :: later ∧ interpreter.Succeed alone earlier ∧
    interpreter.ComesTo run last (.error cause) ∧
    sink = (earlier.flatMap fun run => (alone run).1) ++ last
  empty : ∀ run : Run, run.tape = [] → interpreter.ComesTo run [] (.error .noTape)
  unique : ∀ sink sink' outcome outcome', interpreter.AllComeTo sink outcome →
    interpreter.AllComeTo sink' outcome' → sink = sink' ∧ outcome = outcome'
  texts : ∀ (told : Run → List Emission) (runs : List Run) last,
    emittedText (runs.flatMap told ++ last) =
      String.join (runs.map fun run => emittedText (told run)) ++ emittedText last
  flushes : ∀ (told : Run → List Emission) (runs : List Run) last,
    emittedFlushes (runs.flatMap told ++ last) =
      (runs.map fun run => emittedFlushes (told run)).sum + emittedFlushes last
  -- Nothing depends on the runs after one that fails.
  cuts : ∀ (other : Interpreter) earlier run later later' sink cause, interpreter.Alike other →
    interpreter.program.runs = earlier ++ run :: later →
    other.program.runs = earlier ++ run :: later' → interpreter.ComesTo run sink (.error cause) →
    ∀ all outcome, interpreter.AllComeTo all outcome → other.AllComeTo all outcome
  executed : ∀ patience executions,
    interpreter.program.executeAll interpreter.limit patience = some executions →
    interpreter.AllComeTo (interpreter.shown (executions.flatMap Execution.emissions))
      (executions.mapM (Execution.result interpreter.keepsHistory)) ∧
    executions.map Execution.run <+: interpreter.program.runs ∧
    ∀ execution ∈ executions.dropLast, execution.ending.error? = none
  reordered : ∀ other : Interpreter, other.program.rules = interpreter.program.rules →
    other.program.haltStates = interpreter.program.haltStates →
    other.limit = interpreter.limit → other.traces = interpreter.traces →
    other.keepsHistory = interpreter.keepsHistory →
    other.program.runs.Perm interpreter.program.runs →
    ∀ sink results, interpreter.AllComeTo sink (.ok results) → ∃ sink' results' result,
      other.AllComeTo sink' (.ok results') ∧ results'.Perm results ∧
      results = interpreter.program.runs.map result ∧
      results' = other.program.runs.map result

theorem composes (interpreter : Interpreter) : interpreter.Composes where
  returns := fun _ _ => returns_iff
  raises := fun _ _ => raises_iff
  empty := by
    intro run empty
    refine ⟨0,?_⟩
    rw [interpret_eq,Program.execute_empty _ _ _ empty]
    simp [Execution.emissions,Execution.result,shown]
  unique := fun _ _ _ _ => AllComeTo.functional
  texts := emittedText_flatMap
  flushes := emittedFlushes_flatMap
  cuts := fun _ _ _ _ _ _ _ alike order order' failed _ _ => .past_failure alike order order' failed
  executed := by
    intro patience executions executed
    exact ⟨allComeTo_of_executed executed,Program.executeAll_runs executed⟩
  reordered := by
    intro other rules haltStates limit traces keepsHistory order sink results
    exact AllComeTo.reordered ⟨.of_eq rules haltStates,limit,traces,keepsHistory⟩ order

end Interpreter

end TapeMachine
