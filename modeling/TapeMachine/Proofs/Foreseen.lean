import TapeMachine.Proofs.Acceptance
import TapeMachine.Proofs.EmptyTapes
import TapeMachine.Proofs.Files
import TapeMachine.Proofs.Preparation

-- What an invocation comes to without a configuration file: which failures are told in a line,
-- and all the ways to end the program otherwise.
namespace TapeMachine

namespace Assembly

theorem compile_refused {program : Program} {refusal : Refusal}
    (refused : Sizes.accept {} program = .error refusal) :
    Sizes.compile {} program = .error (.refused refusal) := by
  have short : Text.isWritable 256 = true := by decide +kernel
  have written : refusal.numbers.all Text.isWritable = true := by
    rw [List.all_eq_true]
    intro size member
    rcases (accept_eq_error_iff.mp refused).numbers size member with rfl | rfl <;> exact short
  simp [Sizes.compile,refused,Refusal.error,written]

theorem compile_usual {program : Program} {run : Run} (accepts : Sizes.accept {} program = .ok run) :
    ∃ listing, Sizes.compile {} program = .ok listing := by
  have accepted := accepted_of accepts
  obtain ⟨state,lines⟩ := programLines_ok accepted.narrow_state accepted.narrow_tape program
  have short : (bufferLines 256 256).all Line.isWritable = true := by decide +kernel
  cases compiled : Sizes.compile {} program with
  | ok listing => exact ⟨listing,rfl⟩
  | error cause => simp [Sizes.compile,accepts,writable,short,lines] at compiled

end Assembly

def Settings.allowance (settings : Settings) : Option Int × Option Unusable :=
  match settings.limit with
  | .ok limit => (limit,none)
  | .error cause => (some 0,some cause)

namespace CommandLine

structure Request.Plain (request : Request) : Prop where
  noConfig : request.config = none
  level : request.logLevel ≠ some .nothing
  limited : ∀ maxSteps asJson dropSteps, request.task = .run maxSteps asJson dropSteps →
    ∃ most, maxSteps = some (.value most)

-- All that ends the program without a word to the user.
inductive Request.Breaks (request : Request) (reading : Reading) : Failure → Prop where
  | sourceName : '\x00' ∈ request.source.text.toList →
      Breaks request reading (.unreadable request.source .nulCharacter)
  | emptyTape {program : Program} {most : Int} {asJson dropSteps : Bool} :
      (readProgram request.source reading).2 = .ok program →
      request.task = .run (some (.value most)) asJson dropSteps →
      program.MeetsEmpty (some most) program.runs → Breaks request reading (.run .noTape)
  | noOutput {program : Program} {run : Run} :
      (readProgram request.source reading).2 = .ok program →
      request.task = .compile (some .nothing) → Assembly.Sizes.accept {} program = .ok run →
      Breaks request reading .noOutput
  | outputName {program : Program} {run : Run} {path : Path} :
      (readProgram request.source reading).2 = .ok program →
      request.task = .compile (some (.value path)) → Assembly.Sizes.accept {} program = .ok run →
      '\x00' ∈ path.text.toList → Breaks request reading (.unwritable path .nulCharacter)

theorem readProgram_nul {reading : Reading} {path : Path}
    (refused : reading.file path = .error .nulCharacter) :
    readProgram path reading = ([],.error (.unreadable path .nulCharacter)) := by
  simp [readProgram,readSource,refused]

theorem nul_of_readProgram {reading : Reading} {path : Path} {failure : Failure}
    (failed : (readProgram path reading).2 = .error failure)
    (unforeseen : failure.isUnforeseen = true) : reading.file path = .error .nulCharacter := by
  unfold readProgram readSource at failed
  cases read : reading.file path with
  | error cause =>
    simp only [read] at failed
    cases failed
    cases cause <;> cases unforeseen
    rfl
  | ok bytes =>
    simp only [read] at failed
    cases decoded : decodeSource bytes with
    | error cause =>
      simp only [decoded] at failed
      cases failed
      cases unforeseen
    | ok text =>
      simp only [decoded] at failed
      split at failed <;> cases failed
      cases unforeseen

namespace Request

def level (request : Request) : Log.Level :=
  match request.logLevel with
  | some (.value level) => level
  | _ => usualLevel

def plainSettings (request : Request) : Settings :=
  match request.task with
  | .run maxSteps _ dropSteps =>
    { logLevel := .text request.level.name, maxSteps := setBy .int maxSteps,
      captureSteps := .bool (!dropSteps) }
  | .compile _ => { logLevel := .text request.level.name }

theorem Plain.settings_eq {request : Request} (plain : request.Plain) (reading : Reading) :
    request.settings reading = .ok request.plainSettings := by
  obtain ⟨config,logLevel,source,task⟩ := request
  obtain ⟨noConfig,given,limited⟩ := plain
  obtain rfl : config = none := noConfig
  rcases logLevel with _ | level | _
  · cases task with
    | run maxSteps asJson dropSteps =>
      obtain ⟨most,rfl⟩ := limited _ _ _ rfl
      cases dropSteps <;> rfl
    | compile => rfl
  · cases task with
    | run maxSteps asJson dropSteps =>
      obtain ⟨most,rfl⟩ := limited _ _ _ rfl
      cases dropSteps <;> rfl
    | compile => rfl
  · exact absurd rfl given

theorem limit_eq {request : Request} {most : Int} {asJson dropSteps : Bool}
    (task : request.task = .run (some (.value most)) asJson dropSteps) :
    request.plainSettings.limit = .ok (some most) := by
  rw [plainSettings,task]
  rfl

theorem sizes_eq {request : Request} {output : Option (Given Path)}
    (task : request.task = .compile output) : sizesOf request.plainSettings = .ok {} := by
  rw [plainSettings,task]
  rfl

theorem leastSeverity_eq (request : Request) :
    request.plainSettings.leastSeverity = .ok request.level.severity := by
  have named : request.plainSettings.logLevel = .text request.level.name := by
    unfold plainSettings
    split <;> rfl
  rw [Settings.leastSeverity,named]
  simp only [Log.severity?_name]

end Request

theorem run_unforeseen_iff (cause : RunError) :
    (Failure.run cause).isUnforeseen = true ↔ cause = .noTape ∨ cause = .machine .offTape := by
  rcases cause with _ | cause | _
  · simp [Failure.isUnforeseen]
  · cases cause <;> simp [Failure.isUnforeseen]
  · simp [Failure.isUnforeseen]

def runFailure (unusable : Option Unusable) (cause : RunError) : Failure :=
  match cause,unusable with
  | .stepLimit _ _,some cause => .unusable cause
  | cause,_ => .run cause

theorem runFailure_none : runFailure none = Failure.run := by
  funext cause
  cases cause <;> rfl

theorem runReport_eq (settings : Settings) (severity : Nat) (asJson : Bool)
    (log : List Log.Record) (program : Program) (patience : Nat) :
    runReport settings severity asJson log program patience =
      (program.executeAll settings.allowance.1 patience).map fun executions =>
        ⟨runOutput asJson settings.captureSteps.isTrue executions,
          log ++ executions.flatMap Execution.log,severity,
          (executions.findSome? (·.ending.error?)).map (runFailure settings.allowance.2)⟩ := by
  unfold runReport Settings.allowance
  cases settings.limit with
  | ok limit =>
    simp only [runFailure_none]
    generalize program.executeAll limit patience = all
    cases all <;> rfl
  | error cause =>
    simp only
    generalize program.executeAll (some 0) patience = all
    cases all <;> rfl

theorem runReport_unforeseen {settings : Settings} {most : Int}
    (limit : settings.limit = .ok (some most)) (severity : Nat) (asJson : Bool)
    (log : List Log.Record) (program : Program) (patience : Nat) :
    ∃ report, runReport settings severity asJson log program patience = some report ∧
      ∀ failure, report.failure = some failure ∧ failure.isUnforeseen = true ↔
        failure = .run .noTape ∧ program.MeetsEmpty (some most) program.runs := by
  obtain ⟨executions,executed,offTape,meets⟩ := program.executeAll_failure most patience program.runs
  have reported : runReport settings severity asJson log program patience =
      some ⟨runOutput asJson settings.captureSteps.isTrue executions,
        log ++ executions.flatMap Execution.log,severity,
        (executions.findSome? (·.ending.error?)).map .run⟩ := by
    have all : program.executeAll (some most) patience = some executions := executed
    rw [runReport_eq,Settings.allowance,limit,all,runFailure_none]
    rfl
  refine ⟨_,reported,?_⟩
  intro failure
  simp only [Option.map_eq_some_iff,← meets]
  constructor
  · rintro ⟨⟨cause,found,rfl⟩,unforeseen⟩
    rcases (run_unforeseen_iff cause).mp unforeseen with rfl | rfl
    · exact ⟨rfl,found⟩
    · exact absurd found offTape
  · rintro ⟨rfl,found⟩
    exact ⟨⟨_,found,rfl⟩,rfl⟩

theorem compileAnswer_unforeseen {settings : Settings} (sizes : sizesOf settings = .ok {})
    (severity : Nat) (output : Option (Given Path)) (log : List Log.Record) (program : Program)
    {system : FileSystem σ} (refuses : system.RefusesNul) (state : σ) (failure : Failure) :
    ((compileAnswer settings severity output log program).perform system state).1.failure =
        some failure ∧
      failure.isUnforeseen = true ↔ (∃ run, Assembly.Sizes.accept {} program = .ok run) ∧
        (output = some .nothing ∧ failure = .noOutput ∨
          ∃ path, output = some (.value path) ∧ '\x00' ∈ path.text.toList ∧
            failure = .unwritable path .nulCharacter) := by
  unfold compileAnswer
  simp only [sizes]
  cases accepts : Assembly.Sizes.accept {} program with
  | error refusal =>
    simp only [Assembly.compile_refused accepts,Answer.perform,Option.some.injEq]
    constructor
    · rintro ⟨rfl,unforeseen⟩
      cases unforeseen
    · rintro ⟨⟨run,accepted⟩,_⟩
      cases accepted
  | ok run =>
    obtain ⟨listing,compiled⟩ := Assembly.compile_usual accepts
    simp only [compiled]
    rcases output with _ | path | _
    · simp [Answer.perform]
    · have nul := refuses.write state path (Utf8.encode listing.text.toList)
      simp only [Answer.perform,Option.some.injEq,Given.value.injEq,reduceCtorEq,false_and,false_or]
      rcases wrote : system.write state path (Utf8.encode listing.text.toList) with
        ⟨cause | finished,after⟩
      · rw [wrote,Except.error.injEq] at nul
        simp only [Option.some.injEq]
        constructor
        · rintro ⟨rfl,unforeseen⟩
          cases cause <;> cases unforeseen
          exact ⟨⟨run,rfl⟩,path,rfl,nul.mp rfl,rfl⟩
        · rintro ⟨_,_,rfl,inPath,rfl⟩
          rw [nul.mpr inPath]
          exact ⟨rfl,rfl⟩
      · simp_all
    · simp only [Answer.perform,Option.some.injEq,reduceCtorEq,false_and,exists_false,or_false,true_and]
      constructor
      · rintro ⟨rfl,_⟩
        exact ⟨⟨run,rfl⟩,rfl⟩
      · rintro ⟨_,rfl⟩
        exact ⟨rfl,rfl⟩

inductive Report.Served (report : Report) : Prop where
  | done : report.failure = none → report.exitCode = 0 →
      report.errorOutput = Log.lines report.leastSeverity report.log → Served report
  | told {failure : Failure} : report.failure = some failure → failure.isUnforeseen = false →
      report.exitCode = 1 → report.errorOutput =
        Log.lines report.leastSeverity report.log ++ (failure.message ++ "\n") → Served report

theorem Report.served_iff (report : Report) :
    report.Served ↔ ∀ failure, report.failure = some failure → failure.isUnforeseen = false := by
  constructor
  · intro served failure failed
    cases served with
    | done none =>
      rw [none] at failed
      cases failed
    | told some foreseen =>
      rw [some] at failed
      cases failed
      exact foreseen
  · intro foreseen
    cases failed : report.failure with
    | none => exact .done failed (by simp [exitCode,failed]) (by simp [errorOutput,failed])
    | some failure =>
      have known := foreseen failure failed
      exact .told failed known (by simp [exitCode,failed]) (by simp [errorOutput,failed,known])

theorem Request.Plain.answered {world : World σ} (refuses : world.toFileSystem.RefusesNul)
    {request : Request} (plain : request.Plain) (state : σ) (patience : Nat) :
    ∃ answer, request.answer (world.reading state) patience = some answer ∧ ∀ failure,
      (answer.perform world.toFileSystem state).1.failure = some failure ∧
        failure.isUnforeseen = true ↔ request.Breaks (world.reading state) failure := by
  have set := plain.settings_eq (world.reading state)
  have levelled := request.leastSeverity_eq
  have unnamed := refuses.read state request.source
  cases read : (readProgram request.source (world.reading state)).2 with
  | error failure =>
    refine ⟨_,Request.answer_of_unprepared (.program set levelled read) patience,?_⟩
    intro other
    simp only [Answer.perform,Option.some.injEq]
    constructor
    · rintro ⟨rfl,unforeseen⟩
      have refused := nul_of_readProgram read unforeseen
      rw [readProgram_nul refused] at read
      cases read
      exact .sourceName (unnamed.mp refused)
    · intro breaks
      cases breaks with
      | sourceName nul =>
        rw [readProgram_nul (unnamed.mpr nul)] at read
        cases read
        exact ⟨rfl,rfl⟩
      | emptyTape found | noOutput found | outputName found =>
        rw [read] at found
        cases found
  | ok program =>
    have named : '\x00' ∉ request.source.text.toList := by
      intro nul
      rw [readProgram_nul (unnamed.mpr nul)] at read
      cases read
    rw [Request.answer_of_prepared ⟨set,levelled,read⟩]
    cases task : request.task with
    | run maxSteps asJson dropSteps =>
      obtain ⟨most,rfl⟩ := plain.limited _ _ _ task
      obtain ⟨report,reported,unforeseen⟩ := runReport_unforeseen (Request.limit_eq task)
        request.level.severity asJson (readProgram request.source (world.reading state)).1 program patience
      refine ⟨.report report,by simp only [reported,Option.map_some],fun failure => ?_⟩
      simp only [Answer.perform,unforeseen]
      constructor
      · rintro ⟨rfl,meets⟩
        exact .emptyTape read task meets
      · intro breaks
        cases breaks with
        | sourceName nul => exact absurd nul named
        | emptyTape found same meets =>
          cases read.symm.trans found
          cases task.symm.trans same
          exact ⟨rfl,meets⟩
        | noOutput _ same | outputName _ same => cases task.symm.trans same
    | compile output =>
      refine ⟨_,rfl,fun failure => ?_⟩
      rw [compileAnswer_unforeseen (Request.sizes_eq task) _ _ _ _ refuses]
      constructor
      · rintro ⟨⟨run,accepted⟩,⟨rfl,rfl⟩ | ⟨path,rfl,nul,rfl⟩⟩
        · exact .noOutput read task accepted
        · exact .outputName read task accepted nul
      · intro breaks
        cases breaks with
        | sourceName nul => exact absurd nul named
        | emptyTape _ same => cases task.symm.trans same
        | noOutput found same accepted =>
          cases read.symm.trans found
          cases task.symm.trans same
          exact ⟨⟨_,accepted⟩,.inl ⟨rfl,rfl⟩⟩
        | outputName found same accepted nul =>
          cases read.symm.trans found
          cases task.symm.trans same
          exact ⟨⟨_,accepted⟩,.inr ⟨_,rfl,nul,rfl⟩⟩

theorem invoke_served {world : World σ} (refuses : world.toFileSystem.RefusesNul)
    {arguments : List String} {request : Request} (read : Request.read arguments = .ok request)
    (plain : request.Plain) (state : σ) (patience : Nat) :
    ∃ report after, invoke world arguments patience state = some (.ok report,after) ∧
      (report.Served ↔ ∀ failure, ¬request.Breaks (world.reading state) failure) ∧
      ∀ failure, request.Breaks (world.reading state) failure → report.failure = some failure := by
  obtain ⟨answer,answered,unforeseen⟩ := plain.answered refuses state patience
  refine ⟨(answer.perform world.toFileSystem state).1,(answer.perform world.toFileSystem state).2,
    by simp [invoke,read,answered],?_,?_⟩
  · simp only [Report.served_iff,← unforeseen,not_and,Bool.not_eq_true]
  · intro failure breaks
    exact ((unforeseen failure).mpr breaks).1

def emptyTapeDisk : Disk := ⟨[],[(["a.tur"],Utf8.encode "#run [ ] A\n".toList)]⟩

def fiveSteps : List String := ["run","a.tur","--max-steps","5"]

def fiveStepsRequest : Request :=
  ⟨none,none,Path.of "a.tur",.run (some (.value 5)) false false⟩

theorem fiveSteps_read : Request.read fiveSteps = .ok fiveStepsRequest :=
  Request.read_of_found (by decide +kernel)

theorem fiveSteps_plain : fiveStepsRequest.Plain := by
  refine ⟨rfl,by simp [fiveStepsRequest],?_⟩
  intro maxSteps asJson dropSteps task
  cases task
  exact ⟨5,rfl⟩

theorem invoke_served_five : shallowWorld.toFileSystem.RefusesNul ∧
    Request.read fiveSteps = .ok fiveStepsRequest ∧ fiveStepsRequest.Plain ∧ ∃ report after,
      invoke shallowWorld fiveSteps 0 emptyTapeDisk = some (.ok report,after) ∧
      (report.Served ↔
        ∀ failure, ¬fiveStepsRequest.Breaks (shallowWorld.reading emptyTapeDisk) failure) ∧
      ∀ failure, fiveStepsRequest.Breaks (shallowWorld.reading emptyTapeDisk) failure →
        report.failure = some failure :=
  have refuses : shallowWorld.toFileSystem.RefusesNul := Disk.refusesNul
  ⟨refuses,fiveSteps_read,fiveSteps_plain,
    invoke_served refuses fiveSteps_read fiveSteps_plain emptyTapeDisk 0⟩

theorem empty_tape_unserved : ¬ ∀ arguments request, Request.read arguments = .ok request →
    request.Plain → ∀ disk patience, ∃ report after,
      invoke shallowWorld arguments patience disk = some (.ok report,after) ∧ report.Served := by
  intro claim
  obtain ⟨report,after,invoked,served⟩ :=
    claim fiveSteps fiveStepsRequest fiveSteps_read fiveSteps_plain emptyTapeDisk 0
  have ended : (invoke shallowWorld fiveSteps 0 emptyTapeDisk).map
      (·.1.toOption.map fun report => report.failure.map Failure.isUnforeseen) =
        some (some (some true)) := by decide +kernel
  rw [invoked] at ended
  obtain ⟨failure,failed,unforeseen⟩ : ∃ failure, report.failure = some failure ∧
      failure.isUnforeseen = true := by simpa [Except.toOption] using ended
  have foreseen := (Report.served_iff report).mp served failure failed
  exact Bool.noConfusion (unforeseen.symm.trans foreseen)

end CommandLine

end TapeMachine
