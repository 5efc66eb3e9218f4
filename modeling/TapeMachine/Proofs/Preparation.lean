import TapeMachine.CommandLine.Session
import TapeMachine.Disk
import TapeMachine.Proofs.Documents

-- What comes before the work that a request is for: the settings, the log's level and the program
-- are found one after another, and the first of them to be wanting is all that is reported.
namespace TapeMachine.CommandLine

def shallowWorld : World Disk := ⟨Disk.system,Yaml.shallowReader⟩

structure Report.Mute (report : Report) : Prop where
  failed : report.failure.isSome
  silent : report.output = ""

namespace Request

structure Prepared (request : Request) (reading : Reading) (settings : Settings) (severity : Nat)
    (program : Program) : Prop where
  set : request.settings reading = .ok settings
  levelled : settings.leastSeverity = .ok severity
  parsed : (readProgram request.source reading).2 = .ok program

inductive Unprepared (request : Request) (reading : Reading) : Report → Prop where
  | settings {failure : Failure} : request.settings reading = .error failure →
      Unprepared request reading ⟨"",[],usualLevel.severity,some failure⟩
  | level {settings : Settings} {cause : Unusable} : request.settings reading = .ok settings →
      settings.leastSeverity = .error cause →
      Unprepared request reading ⟨"",[],usualLevel.severity,some (.unusable cause)⟩
  | program {settings : Settings} {severity : Nat} {failure : Failure} :
      request.settings reading = .ok settings → settings.leastSeverity = .ok severity →
      (readProgram request.source reading).2 = .error failure → Unprepared request reading
        ⟨"",(readProgram request.source reading).1,severity,some failure⟩

variable {request : Request} {reading : Reading} {settings : Settings} {severity : Nat}
  {program : Program} {report : Report}

theorem prepared_or (request : Request) (reading : Reading) :
    (∃ report, request.Unprepared reading report) ∨
      ∃ settings severity program, request.Prepared reading settings severity program := by
  cases set : request.settings reading with
  | error failure => exact .inl ⟨_,.settings set⟩
  | ok settings =>
    cases levelled : settings.leastSeverity with
    | error cause => exact .inl ⟨_,.level set levelled⟩
    | ok severity =>
      cases parsed : (readProgram request.source reading).2 with
      | error failure => exact .inl ⟨_,.program set levelled parsed⟩
      | ok program => exact .inr ⟨settings,severity,program,set,levelled,parsed⟩

theorem Unprepared.mute (unprepared : request.Unprepared reading report) : report.Mute := by
  cases unprepared <;> exact ⟨rfl,rfl⟩

theorem answer_of_unprepared (unprepared : request.Unprepared reading report) (patience : Nat) :
    request.answer reading patience = some (.report report) := by
  unfold answer
  cases unprepared with
  | settings failed =>
    rw [failed]
    rfl
  | level set failed =>
    rw [set]
    simp only [bind,Except.bind,failed]
    rfl
  | program set levelled failed =>
    rw [set]
    simp only [bind,Except.bind,levelled,pure,Except.pure,failed]
    rfl

theorem answer_of_prepared (prepared : request.Prepared reading settings severity program)
    (patience : Nat) : request.answer reading patience =
      match request.task with
      | .run _ asJson _ => (runReport settings severity asJson
          (readProgram request.source reading).1 program patience).map .report
      | .compile output => some
          (compileAnswer settings severity output (readProgram request.source reading).1 program) := by
  unfold answer
  rw [prepared.set]
  cases request.task with
  | run maxSteps asJson drops =>
    simp only [bind,Except.bind,prepared.levelled,pure,Except.pure,prepared.parsed]
    rfl
  | compile output =>
    simp only [bind,Except.bind,prepared.levelled,pure,Except.pure,prepared.parsed]
    rfl

theorem read_of_found {arguments : List String}
    (found : (Request.read arguments).toOption = some request) :
    Request.read arguments = .ok request := by
  cases read : Request.read arguments with
  | error stop =>
    rw [read] at found
    cases found
  | ok other =>
    rw [read] at found
    exact congrArg Except.ok (Option.some.inj found)

end Request

end TapeMachine.CommandLine
