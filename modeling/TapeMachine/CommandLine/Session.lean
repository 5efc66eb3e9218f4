import TapeMachine.CommandLine.Request
import TapeMachine.Settings.Document
import TapeMachine.Source
import TapeMachine.Program.Parser
import TapeMachine.Execution
import TapeMachine.Assembly.Compilation
import TapeMachine.Json

-- Carrying out requests: from the files' contents to what is written, and where.
namespace TapeMachine.CommandLine

open Yaml (Value)

inductive Failure where
  | noConfig
  | noOutput
  | settings (cause : LoadError)
  | unusable (cause : Unusable)
  | unreadable (path : Path) (cause : FileError)
  | invalidByte (file : String) (cause : InvalidByte)
  | parse (file : String) (cause : ParseError)
  | run (cause : RunError)
  | compile (cause : Assembly.CompileError)
  | unwritable (path : Path) (cause : FileError)

def compileMessage : Assembly.CompileError → String
  | .refused refusal => refusal.message
  | .emission (.notOneCharacter symbol) => s!"{Text.quoted symbol} is not one character"
  | .emission (.undeclared text) => s!"{Text.quoted text} has not been declared"
  | .emission .longNumber => Text.beyondLimit ""

def unusableMessage : Unusable → String
  | .mistyped field => s!"the value of {field.name} cannot be used"
  | .unknownLevel name => s!"there is no log level {Text.quoted name}"

def Failure.message : Failure → String
  | noConfig => "no configuration file is given"
  | noOutput => "no output file is given"
  | settings cause => cause.message
  | unusable cause => unusableMessage cause
  | unreadable path cause => s!"Failed to read {path.text}: {cause.message path}"
  | invalidByte file cause => cause.message file
  | parse file cause => cause.message file
  | run cause => cause.message
  | compile cause => compileMessage cause
  | unwritable path cause => s!"Failed to write {path.text}: {cause.message path}"

def Failure.isUnforeseen : Failure → Bool
  | noConfig => true
  | noOutput => true
  | unusable _ => true
  | settings (.broken _) => true
  | settings (.settings (.unorderedKeys _)) => true
  | settings (.settings (.unshowable _)) => true
  | settings (.unreadable _ _ .nulCharacter) => true
  | unreadable _ .nulCharacter => true
  | unwritable _ .nulCharacter => true
  | run .noTape => true
  | run (.machine .offTape) => true
  | compile (.emission _) => true
  | _ => false

structure Report where
  output : String
  log : List Log.Record
  leastSeverity : Nat
  failure : Option Failure

namespace Report

def exitCode (report : Report) : Nat := if report.failure.isSome then 1 else 0

def errorOutput (report : Report) : String :=
  let told := match report.failure with
    | some failure => if failure.isUnforeseen then "" else failure.message ++ "\n"
    | none => ""
  Log.lines report.leastSeverity report.log ++ told

end Report

inductive Answer where
  | report (report : Report)
  | write (path : Path) (text : String) (written : Report) (failed : FileError → Report)

structure Reading where
  file : Path → Except FileError (List UInt8)
  document : Yaml.Reader

def parserOrigin : String := "turir.parser"
def commandOrigin : String := "turir.cli"

def acceptedRecord (file : String) (token : Token) : Log.Record :=
  ⟨.debug,parserOrigin,token.position.inFile file ++ ": " ++ token.kind.label ++ " " ++
    Text.quoted token.text⟩

def parsedRecord (program : Program) : Log.Record :=
  let haltStates := ", ".intercalate program.haltStates
  ⟨.debug,parserOrigin,s!"parsed {program.rules.length} instruction(s), " ++
    s!"{program.runs.length} run(s), halt states {haltStates}"⟩

def readSource (path : Path) (reading : Reading) : Except Failure (List Char) :=
  match reading.file path with
  | .error cause => .error (.unreadable path cause)
  | .ok bytes =>
    match decodeSource bytes with
    | .error cause => .error (.invalidByte path.text cause)
    | .ok text => .ok (text ++ ['\n'])

def readProgram (path : Path) (reading : Reading) : List Log.Record × Except Failure Program :=
  match readSource path reading with
  | .error failure => ([],.error failure)
  | .ok text =>
    let accepted (parser : Parser) := parser.accepted.reverse.map (acceptedRecord path.text)
    match Parser.program (.start text) with
    | .error cause parser => (accepted parser,.error (.parse path.text cause))
    | .ok program parser => (accepted parser ++ [parsedRecord program],.ok program)

def momentJson (moment : Moment) : JsonValue :=
  .object [("step",.number moment.step),("instruction",.text moment.rule.text),
    ("tape",.list (moment.cells.map .text)),("head",.number moment.head)]

def resultJson (result : RunResult) : JsonValue :=
  .object [("run",.text result.run.text),("final_state",.text result.finalState),
    ("tape",.list (result.cells.map .text)),("head",.number result.head),
    ("steps",.number result.steps),("history",.list (result.history.map momentJson))]

def runOutput (asJson keepHistory : Bool) (executions : List Execution) : String :=
  if asJson then
    match executions.mapM (Execution.result keepHistory) with
    | .ok results => (JsonValue.list (results.map resultJson)).render 0 ++ "\n"
    | .error _ => ""
  else String.join (executions.map Execution.trace)

-- A limit that is no number ends the first run where a limit of zero steps would.
def runReport (settings : Settings) (severity : Nat) (asJson : Bool) (log : List Log.Record)
    (program : Program) (patience : Nat) : Option Report := do
  let (limit,unusable) := match settings.limit with
    | .ok limit => (limit,none)
    | .error cause => (some 0,some cause)
  let executions ← program.executeAll limit patience
  let failure := (executions.findSome? (·.ending.error?)).map fun cause =>
    match cause,unusable with
    | .stepLimit _ _,some cause => Failure.unusable cause
    | cause,_ => .run cause
  return ⟨runOutput asJson settings.captureSteps.isTrue executions,
    log ++ executions.flatMap Execution.log,severity,failure⟩

def sizesOf (settings : Settings) : Except Unusable Assembly.Sizes := do
  return ⟨← settings.whole .tapeSize,← settings.whole .printBufferSize⟩

def compileAnswer (settings : Settings) (severity : Nat) (output : Option (Given Path))
    (log : List Log.Record) (program : Program) : Answer :=
  let failed log failure := Answer.report ⟨"",log,severity,some failure⟩
  match sizesOf settings with
  | .error cause => failed log (.unusable cause)
  | .ok sizes =>
    match sizes.compile program with
    | .error (.emission cause) =>
      let accepted := (sizes.accept program).toOption.toList
      let declared := accepted.map fun run => (Assembly.Listing.data program run).declaredRecord
      failed (log ++ declared) (.compile (.emission cause))
    | .error cause => failed log (.compile cause)
    | .ok listing =>
      let log := log ++ program.runs.flatMap listing.log
      match output with
      | none => .report ⟨listing.text,log,severity,none⟩
      | some .nothing => failed log .noOutput
      | some (.value path) =>
        let note : Log.Record := ⟨.info,commandOrigin,"assembly written to " ++ path.text⟩
        .write path listing.text ⟨"",log ++ [note],severity,none⟩
          fun cause => ⟨"",log,severity,some (.unwritable path cause)⟩

-- The value that an option sets. An option given nothing sets a list of no values, which is of
-- no use, but is not nothing.
def setBy (toValue : α → Value) : Option (Given α) → Value
  | none => .null
  | some .nothing => .list []
  | some (.value found) => toValue found

def Request.overrides (request : Request) : List (Field × Value) :=
  let level := setBy (fun level => .text level.name) request.logLevel
  match request.task with
  | .run maxSteps _ dropSteps =>
    [(.logLevel,level),(.maxSteps,setBy .int maxSteps),
      (.captureSteps,if dropSteps then .bool false else .null)]
  | .compile _ => [(.logLevel,level)]

def Request.settings (request : Request) (reading : Reading) : Except Failure Settings := do
  let settings ← match request.config with
    | none => .ok {}
    | some .nothing => .error .noConfig
    | some (.value path) =>
      (Settings.load reading.document path.text path (reading.file path)).mapError .settings
  return settings.laid request.overrides

-- The answer to a request. There is none only if a run without a limit outlasts the patience.
def Request.answer (request : Request) (reading : Reading) (patience : Nat) : Option Answer :=
  let settings := do
    let settings ← request.settings reading
    return (settings,← settings.leastSeverity.mapError .unusable)
  match settings with
  | .error failure => some (.report ⟨"",[],usualLevel.severity,some failure⟩)
  | .ok (settings,severity) =>
    let (log,program) := readProgram request.source reading
    match program with
    | .error failure => some (.report ⟨"",log,severity,some failure⟩)
    | .ok program =>
      match request.task with
      | .run _ asJson _ =>
        (runReport settings severity asJson log program patience).map .report
      | .compile output => some (compileAnswer settings severity output log program)

structure World (State : Type) extends FileSystem State where
  document : Yaml.Reader

def World.reading (world : World σ) (state : σ) : Reading := ⟨world.read state,world.document⟩

def Answer.perform (system : FileSystem σ) (state : σ) : Answer → Report × σ
  | report only => (only,state)
  | write path text written failed =>
    match system.write state path (Utf8.encode text.toList) with
    | (.ok (),after) => (written,after)
    | (.error cause,after) => (failed cause,after)

def invoke (world : World σ) (arguments : List String) (patience : Nat) (state : σ) :
    Option (Except Stop Report × σ) :=
  match Request.read arguments with
  | .error stop => some (.error stop,state)
  | .ok request =>
    (request.answer (world.reading state) patience).map fun answer =>
      let (report,after) := answer.perform world.toFileSystem state
      (.ok report,after)

end TapeMachine.CommandLine
