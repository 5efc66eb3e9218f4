import Mathlib.Data.List.Forall2
import TapeMachine.Proofs.Composition
import TapeMachine.Proofs.Foreseen
import TapeMachine.Proofs.JsonReading
import TapeMachine.Proofs.Preparation
import TapeMachine.Proofs.Trace

-- The same runs told as text and as JSON. Both come from the same executions, whatever the
-- interpreter that tells them shows and keeps.
namespace TapeMachine

open Machine

def RunResult.kept (keepsHistory : Bool) (result : RunResult) : RunResult :=
  if keepsHistory then result else result.bare

def RunResult.ClosesTrace (result : RunResult) (trace : String) : Prop :=
  trace = result.run.text ++ "\n" ++ String.join (result.history.map Moment.text) ++
      drawTape result.cells result.head ++ " -- HALT -- with " ++ result.finalState ++ "\n\n" ∧
    result.history.length = result.steps

namespace Execution

theorem result_kept {execution : Execution} {result : RunResult}
    (halted : execution.result true = .ok result) (keepsHistory : Bool) :
    execution.result keepsHistory = .ok (result.kept keepsHistory) := by
  unfold Execution.result at halted ⊢
  cases ending : execution.ending with
  | halted machine =>
    rw [ending] at halted
    cases halted
    cases keepsHistory <;> rfl
  | _ =>
    rw [ending] at halted
    cases halted

theorem exists_result {execution : Execution} (succeeded : execution.ending.error? = none) :
    ∃ result, execution.result true = .ok result := by
  obtain ⟨machine,halted⟩ := Ending.error?_eq_none_iff.mp succeeded
  unfold Execution.result
  rw [halted]
  exact ⟨_,rfl⟩

theorem mapM_result_error {executions : List Execution} {cause : RunError}
    (failed : executions.findSome? (·.ending.error?) = some cause) (keepsHistory : Bool) :
    executions.mapM (result keepsHistory) = .error cause := by
  induction executions with
  | nil => cases failed
  | cons execution executions ih =>
    rw [List.mapM_cons]
    cases ended : execution.ending.error? with
    | some other =>
      simp only [List.findSome?_cons,ended,Option.some.injEq] at failed
      rw [Execution.result_eq_error_iff.mpr ended,failed]
      rfl
    | none =>
      simp only [List.findSome?_cons,ended] at failed
      obtain ⟨result,halted⟩ := exists_result ended
      rw [result_kept halted,ih failed]
      rfl

theorem mapM_result_ok {executions : List Execution}
    (succeeded : executions.findSome? (·.ending.error?) = none) : ∃ results,
      List.Forall₂ (fun execution result => execution.result true = .ok result) executions results ∧
        ∀ keepsHistory, executions.mapM (result keepsHistory) =
          .ok (results.map (RunResult.kept keepsHistory)) := by
  induction executions with
  | nil => exact ⟨[],.nil,fun _ => rfl⟩
  | cons execution executions ih =>
    rw [List.findSome?_cons] at succeeded
    cases ended : execution.ending.error? with
    | some cause => simp [ended] at succeeded
    | none =>
      simp only [ended] at succeeded
      obtain ⟨results,each,all⟩ := ih succeeded
      obtain ⟨result,halted⟩ := exists_result ended
      refine ⟨result :: results,.cons halted each,?_⟩
      intro keepsHistory
      rw [List.mapM_cons,result_kept halted,all]
      rfl

theorem emissions_texts (executions : List Execution) :
    emittedText (executions.flatMap emissions) = String.join (executions.map trace) := by
  have texts := Interpreter.emittedText_flatMap emissions executions []
  have empty : emittedText [] = "" := rfl
  simpa only [List.append_nil,Execution.emissions_text,empty,String.append_empty] using texts

end Execution

namespace Program

variable {program : Program} {limit : Option Int} {patience : Nat}

theorem closes_of_executed {run : Run} {execution : Execution} {result : RunResult}
    (executed : program.execute limit patience run = some execution)
    (halted : execution.result true = .ok result) :
    result.run = run ∧ result.ClosesTrace execution.trace := by
  by_cases filled : run.tape = []
  · rw [execute_empty program limit patience filled] at executed
    cases executed
    cases halted
  · obtain ⟨fresh,started⟩ := fresh_of run filled
    obtain ⟨rfl,last,course,ends,_⟩ := (comesTo_iff started).mp ⟨patience,executed⟩
    obtain ⟨run,moments,ending⟩ := execution
    cases ends with
    | halted stopped =>
      cases halted
      refine ⟨rfl,?_,(started.counted course).symm⟩
      simp only [Execution.trace,String.append_assoc]
      rfl
    | _ => cases halted

theorem executeAll_closes {runs : List Run} {executions : List Execution}
    {results : List RunResult} (executed : executeAll.go program limit patience runs = some executions)
    (halted : List.Forall₂ (fun execution result => execution.result true = .ok result)
      executions results) :
    results.map RunResult.run = runs ∧
      List.Forall₂ RunResult.ClosesTrace results (executions.map Execution.trace) := by
  induction runs generalizing executions results with
  | nil =>
    cases executed
    cases halted
    exact ⟨rfl,.nil⟩
  | cons run runs ih =>
    unfold executeAll.go at executed
    cases first : program.execute limit patience run with
    | none => simp [first] at executed
    | some execution =>
      simp only [first] at executed
      split at executed
      · -- The only execution fails, but all of them halt.
        rename_i failing
        cases executed
        cases halted with
        | cons halts _ =>
          obtain ⟨cause,failed⟩ := Option.isSome_iff_exists.mp failing
          rw [Execution.result_eq_error_iff.mpr failed] at halts
          cases halts
      · obtain ⟨rest,later,rfl⟩ := Option.map_eq_some_iff.mp executed
        cases halted with
        | cons halts others =>
          obtain ⟨same,closes⟩ := closes_of_executed first halts
          obtain ⟨order,all⟩ := ih later others
          exact ⟨by rw [List.map_cons,same,order],.cons closes all⟩

end Program

namespace Settings

def keeps (settings : Settings) (drops : Bool) : Bool := settings.captureSteps.isTrue && !drops

def teller (settings : Settings) (program : Program) : Interpreter :=
  ⟨program,settings.allowance.1,true,false⟩
def keeper (settings : Settings) (program : Program) (drops : Bool) : Interpreter :=
  ⟨program,settings.allowance.1,false,settings.keeps drops⟩

def dropping (drops : Bool) (settings : Settings) : Settings :=
  if drops then settings.put (.bool false) .captureSteps else settings

theorem laid_dropping (settings : Settings) (overrides : List (Field × Yaml.Value)) (drops : Bool) :
    settings.laid (overrides ++ [(.captureSteps,if drops then .bool false else .null)]) =
      (settings.laid overrides).dropping drops := by
  unfold laid given putAll
  rw [List.filter_append,List.foldl_append]
  cases drops <;> rfl

variable (settings : Settings) (drops : Bool)

theorem dropping_leastSeverity : (settings.dropping drops).leastSeverity = settings.leastSeverity := by
  cases drops <;> rfl

theorem dropping_allowance : (settings.dropping drops).allowance = settings.allowance := by
  cases drops <;> rfl

theorem dropping_captureSteps :
    (settings.dropping drops).captureSteps.isTrue = settings.keeps drops := by
  cases drops
  · simp [dropping,keeps]
  · simp [dropping,keeps,put,Yaml.Value.isTrue]

end Settings

namespace JsonValue

def names : JsonValue → List String
  | object fields => fields.map (·.1)
  | _ => []

def get? (name : String) : JsonValue → Option JsonValue
  | object fields => fields.lookup name
  | _ => none

end JsonValue

structure Moment.ToldBy (told : JsonValue) (moment : Moment) : Prop where
  names : told.names = ["step","instruction","tape","head"]
  step : told.get? "step" = some (.number moment.step)
  instruction : told.get? "instruction" = some (.text moment.rule.text)
  tape : told.get? "tape" = some (.list (moment.cells.map .text))
  head : told.get? "head" = some (.number moment.head)

structure RunResult.ToldBy (told : JsonValue) (result : RunResult) : Prop where
  names : told.names = ["run","final_state","tape","head","steps","history"]
  run : told.get? "run" = some (.text result.run.text)
  finalState : told.get? "final_state" = some (.text result.finalState)
  tape : told.get? "tape" = some (.list (result.cells.map .text))
  head : told.get? "head" = some (.number result.head)
  steps : told.get? "steps" = some (.number result.steps)
  history : ∃ moments, told.get? "history" = some (.list moments) ∧
    List.Forall₂ Moment.ToldBy moments result.history

namespace CommandLine

def rendered (results : List RunResult) : String :=
  (JsonValue.list (results.map resultJson)).render 0 ++ "\n"

theorem momentJson_tells (moment : Moment) : moment.ToldBy (momentJson moment) :=
  ⟨rfl,rfl,rfl,rfl,rfl⟩

theorem resultJson_tells (result : RunResult) : result.ToldBy (resultJson result) where
  names := rfl
  run := rfl
  finalState := rfl
  tape := rfl
  head := rfl
  steps := rfl
  history := by
    refine ⟨_,rfl,?_⟩
    rw [List.forall₂_map_left_iff,List.forall₂_same]
    exact fun moment _ => momentJson_tells moment

def TellsAll (text : String) (results : List RunResult) : Prop :=
  ∃ told, JsonValue.read? text = some (.list told) ∧ List.Forall₂ RunResult.ToldBy told results

theorem rendered_tells (results : List RunResult) : TellsAll (rendered results) results := by
  refine ⟨results.map resultJson,JsonValue.read?_render _ 0,?_⟩
  rw [List.forall₂_map_left_iff,List.forall₂_same]
  exact fun result _ => resultJson_tells result

-- The runs of a program as they are told in text, and as JSON with the histories dropped or not,
-- with the failure that they end in.
inductive Retold (settings : Settings) (program : Program) (text : String) (json : Bool → String) :
    Option Failure → Prop where
  | finished {sink : List Emission} {results : List RunResult} {traces : List String} :
      (settings.teller program).AllComeTo sink (.ok (results.map RunResult.bare)) →
      (∀ drops, (settings.keeper program drops).AllComeTo []
        (.ok (results.map (RunResult.kept (settings.keeps drops))))) →
      results.map RunResult.run = program.runs →
      List.Forall₂ RunResult.ClosesTrace results traces →
      emittedText sink = String.join traces → text = String.join traces →
      (∀ drops, TellsAll (json drops) (results.map (RunResult.kept (settings.keeps drops)))) →
      (∀ drops, json drops = rendered (results.map (RunResult.kept (settings.keeps drops)))) →
      Retold settings program text json none
  | broken {sink : List Emission} {cause : RunError} :
      (settings.teller program).AllComeTo sink (.error cause) →
      (∀ drops, (settings.keeper program drops).AllComeTo [] (.error cause)) →
      text = emittedText sink → (∀ drops, json drops = "") →
      Retold settings program text json (some (runFailure settings.allowance.2 cause))

theorem retold_of_executed {settings : Settings} {program : Program} {patience : Nat}
    {executions : List Execution}
    (executed : program.executeAll settings.allowance.1 patience = some executions) :
    Retold settings program (runOutput false false executions)
      (fun drops => runOutput true (settings.keeps drops) executions)
      ((executions.findSome? (·.ending.error?)).map (runFailure settings.allowance.2)) := by
  have teller : (settings.teller program).AllComeTo (executions.flatMap Execution.emissions)
      (executions.mapM (Execution.result false)) := Interpreter.allComeTo_of_executed executed
  have keeper (drops : Bool) : (settings.keeper program drops).AllComeTo []
      (executions.mapM (Execution.result (settings.keeps drops))) :=
    Interpreter.allComeTo_of_executed executed
  have texts := Execution.emissions_texts executions
  cases failure : executions.findSome? (·.ending.error?) with
  | none =>
    obtain ⟨results,each,all⟩ := Execution.mapM_result_ok failure
    obtain ⟨order,closes⟩ := Program.executeAll_closes executed each
    simp only [all] at teller keeper
    have json (drops : Bool) : runOutput true (settings.keeps drops) executions =
        rendered (results.map (RunResult.kept (settings.keeps drops))) := by
      simp only [runOutput,all,if_true]
      rfl
    refine .finished teller keeper order closes texts rfl ?_ json
    intro drops
    rw [json]
    exact rendered_tells _
  | some cause =>
    have all := Execution.mapM_result_error failure
    simp only [all] at teller keeper
    refine .broken teller keeper texts.symm ?_
    intro drops
    simp only [runOutput,all,if_true]

-- How an invocation ends, whatever it has written to its output.
structure Report.EndsLike (report other : Report) : Prop where
  failure : report.failure = other.failure
  exitCode : report.exitCode = other.exitCode
  errorOutput : report.errorOutput = other.errorOutput

inductive OneStory (request : Request) (patience : Nat) (reading : Reading) (state : σ)
    (told : Bool → Bool → Option (Except Stop Report × σ)) : Prop where
  | endless {settings : Settings} {severity : Nat} {program : Program} :
      request.Prepared reading settings severity program →
      (settings.teller program).interpretAll patience [] = none →
      (∀ asJson drops, told asJson drops = none) → OneStory request patience reading state told
  | unprepared {report : Report} : request.Unprepared reading report → report.Mute →
      (∀ asJson drops, told asJson drops = some (.ok report,state)) →
      OneStory request patience reading state told
  | ended {settings : Settings} {severity : Nat} {program : Program} {report : Bool → Bool → Report} :
      request.Prepared reading settings severity program →
      (∀ asJson drops, told asJson drops = some (.ok (report asJson drops),state)) →
      (∀ asJson drops, (report asJson drops).EndsLike (report false false)) →
      (∀ drops, (report false drops).output = (report false false).output) →
      Retold settings program (report false false).output (fun drops => (report true drops).output)
        (report false false).failure → OneStory request patience reading state told

section

variable {config : Option (Given Path)} {level : Option (Given Log.Level)} {source : Path}
  {maxSteps : Option (Given Int)}

theorem settings_dropping (asJson drops : Bool) (reading : Reading) :
    Request.settings ⟨config,level,source,.run maxSteps asJson drops⟩ reading =
      (Request.settings ⟨config,level,source,.run maxSteps false false⟩ reading).map
        (Settings.dropping drops) := by
  unfold Request.settings
  cases config with
  | none => exact congrArg Except.ok (Settings.laid_dropping _ [_,_] drops)
  | some given =>
    cases given with
    | nothing => rfl
    | value path =>
      simp only
      cases Settings.load reading.document path.text path (reading.file path) with
      | error cause => rfl
      | ok settings => exact congrArg Except.ok (settings.laid_dropping [_,_] drops)

theorem set_dropping {reading : Reading} {settings : Settings} (set : Request.settings
      ⟨config,level,source,.run maxSteps false false⟩ reading = .ok settings) (asJson drops : Bool) :
    Request.settings ⟨config,level,source,.run maxSteps asJson drops⟩ reading =
      .ok (settings.dropping drops) := by
  rw [settings_dropping,set]
  rfl

theorem prepared_dropping {reading : Reading} {settings : Settings} {severity : Nat}
    {program : Program} (prepared : Request.Prepared
      ⟨config,level,source,.run maxSteps false false⟩ reading settings severity program)
    (asJson drops : Bool) : Request.Prepared ⟨config,level,source,.run maxSteps asJson drops⟩ reading
      (settings.dropping drops) severity program where
  set := set_dropping prepared.set asJson drops
  levelled := by rw [Settings.dropping_leastSeverity,prepared.levelled]
  parsed := prepared.parsed

theorem unprepared_dropping {reading : Reading} {report : Report} (unprepared : Request.Unprepared
      ⟨config,level,source,.run maxSteps false false⟩ reading report) (asJson drops : Bool) :
    Request.Unprepared ⟨config,level,source,.run maxSteps asJson drops⟩ reading report := by
  cases unprepared with
  | settings failed =>
    apply Request.Unprepared.settings
    rw [settings_dropping,failed]
    rfl
  | level set failed =>
    rw [← Settings.dropping_leastSeverity _ drops] at failed
    exact .level (set_dropping set asJson drops) failed
  | program set levelled failed =>
    rw [← Settings.dropping_leastSeverity _ drops] at levelled
    exact .program (set_dropping set asJson drops) levelled failed

end

def halfDoneDisk : Disk :=
  ⟨[],[(["a.tur"],Utf8.encode "#halt B\nA 0 1 -> B\n#run [ 0 ] A\n#run [ 1 ] A\n".toList)]⟩

def halfDone (asJson drops : Bool) : List String :=
  ["run","a.tur"] ++ (if asJson then ["--json"] else []) ++ if drops then ["--no-steps"] else []

theorem halfDone_read (asJson drops : Bool) : Request.read (halfDone asJson drops) =
    .ok ⟨none,none,Path.of "a.tur",.run none asJson drops⟩ := by
  apply Request.read_of_found
  revert asJson drops
  decide +kernel

end CommandLine

end TapeMachine
