import TapeMachine.Proofs.Configured
import TapeMachine.Proofs.Documents
import TapeMachine.Proofs.Merging
import TapeMachine.Proofs.Preparation
import TapeMachine.Proofs.Retold

-- Which settings an invocation works under. For every field on its own an option counts before
-- the file, and the file before what is usual.
namespace TapeMachine

open Yaml (Value)

namespace Settings

def number? : Option Value → Option Int
  | some (.int n) => some n
  | _ => none

def truth? : Option Value → Option Bool
  | some (.bool keep) => some keep
  | _ => none

structure Written where
  maxSteps : Option Int := none
  captureSteps : Option Bool := none
  tapeSize : Option Int := none
  printBufferSize : Option Int := none
  logLevel : Option Log.Level := none

namespace Written

def of (entries : Entries) : Written where
  maxSteps := number? (Value.get? "max_steps" (inside "interpreter" entries))
  captureSteps := truth? (Value.get? "capture_steps" (inside "interpreter" entries))
  tapeSize := number? (Value.get? "tape_size" (inside "compiler" entries))
  printBufferSize := number? (Value.get? "print_buffer_size" (inside "compiler" entries))
  logLevel := (Value.get? "log_level" entries).bind fun found => Log.Level.inAnyCase? found.plain

def sizes (written : Written) : Assembly.Sizes :=
  ⟨written.tapeSize.getD usualSize,written.printBufferSize.getD usualSize⟩

def settings (written : Written) : Settings where
  maxSteps := (written.maxSteps.map .int).getD .null
  captureSteps := .bool (written.captureSteps.getD true)
  tapeSize := .int written.sizes.tape
  printBufferSize := .int written.sizes.printBuffer
  logLevel := .text (written.logLevel.getD usualLevel).name

def under (level : Option Log.Level) (limit : Option Int) (drops : Bool) (written : Written) : Written :=
  { written with
    maxSteps := limit.or written.maxSteps
    captureSteps := if drops then some false else written.captureSteps
    logLevel := level.or written.logLevel }

end Written

theorem getD_number {found? : Option Value} (number : ∀ found, found? = some found → ∃ n, found = .int n) :
    found?.getD (.int usualSize) = .int ((number? found?).getD usualSize) := by
  cases present : found? with
  | none => rfl
  | some found =>
    obtain ⟨n,rfl⟩ := number found present
    rfl

theorem Describes.eq_written {entries : Entries} {settings : Settings}
    (describes : Describes entries settings) (acceptable : Acceptable entries) :
    settings = (Written.of entries).settings := by
  have maxSteps : (Value.get? "max_steps" (inside "interpreter" entries)).getD .null =
      ((number? (Value.get? "max_steps" (inside "interpreter" entries))).map .int).getD .null := by
    cases present : Value.get? "max_steps" (inside "interpreter" entries) with
    | none => rfl
    | some found => rcases acceptable.maxSteps found present with rfl | ⟨n,rfl,_⟩ <;> rfl
  have captureSteps : (Value.get? "capture_steps" (inside "interpreter" entries)).getD (.bool true) =
      .bool ((truth? (Value.get? "capture_steps" (inside "interpreter" entries))).getD true) := by
    cases present : Value.get? "capture_steps" (inside "interpreter" entries) with
    | none => rfl
    | some found =>
      obtain ⟨keep,rfl⟩ := acceptable.captureSteps found present
      rfl
  have tapeSize := getD_number fun found present =>
    (acceptable.tapeSize found present).imp fun _ sized => sized.1
  have printBufferSize := getD_number fun found present =>
    (acceptable.printBufferSize found present).imp fun _ sized => sized.1
  have logLevel : settings.logLevel = .text (((Value.get? "log_level" entries).bind fun found =>
      Log.Level.inAnyCase? found.plain).getD usualLevel).name := by
    rcases describes.logLevel with ⟨absent,usual⟩ | ⟨found,present,_,among,names,named⟩
    · rw [usual,absent]
      rfl
    · obtain ⟨level,rfl⟩ := Log.Level.mem_levelNames_iff.mp among
      have spelled := Value.spells_plain_iff.mpr names
      rw [named,present,Option.bind_some,Log.Level.inAnyCase?_eq_some_iff.mpr spelled]
      rfl
  obtain ⟨_,_,_,_,_⟩ := settings
  obtain ⟨rfl,rfl,rfl,rfl,_⟩ := describes
  cases logLevel
  have usual : (256 : Int) = usualSize := rfl
  rw [maxSteps,captureSteps,usual,tapeSize,printBufferSize]
  rfl

end Settings

namespace CommandLine

open Settings (Written)

-- What the file of a request sets. Without a file, or if it is empty, that is nothing.
inductive Request.FileSets (request : Request) (reading : Reading) : Written → Prop where
  | unnamed : request.config = none → FileSets request reading {}
  | empty {path : Path} {bytes : List UInt8} : request.config = some (.value path) →
      reading.file path = .ok bytes → reading.document bytes = .ok .null → FileSets request reading {}
  | mapping {path : Path} {bytes : List UInt8} {entries : Settings.Entries} :
      request.config = some (.value path) → reading.file path = .ok bytes →
      reading.document bytes = .ok (.map entries) → Settings.Acceptable (Settings.unwrapped entries) →
      FileSets request reading (.of (Settings.unwrapped entries))

namespace Request

variable {request : Request} {reading : Reading} {written : Written} {settings : Settings}

theorem FileSets.settings_eq (sets : request.FileSets reading written) :
    request.settings reading = .ok (written.settings.laid request.overrides) := by
  unfold Request.settings
  cases sets with
  | unnamed unnamed =>
    rw [unnamed]
    rfl
  | @empty path bytes named there holds =>
    rw [named]
    simp only [there,Settings.load_of_read path.text path holds]
    rfl
  | @mapping path bytes entries named there holds acceptable =>
    obtain ⟨found,describes⟩ := acceptable.describes
    have taken := Settings.ofValue_eq_ok_iff.mpr (.inr ⟨entries,rfl,acceptable,describes⟩)
    rw [named]
    simp only [there,Settings.load_of_read path.text path holds,taken,describes.eq_written acceptable]
    rfl

theorem exists_fileSets (set : request.settings reading = .ok settings) :
    ∃ written, request.FileSets reading written := by
  unfold Request.settings at set
  cases named : request.config with
  | none => exact ⟨{},.unnamed named⟩
  | some given =>
    rw [named] at set
    cases given with
    | nothing => cases set
    | value path =>
      obtain ⟨_,accepted,_⟩ := Settings.bind_eq_ok_iff.mp set
      obtain ⟨found,loaded⟩ :
          ∃ found, Settings.load reading.document path.text path (reading.file path) = .ok found := by
        cases taken : Settings.load reading.document path.text path (reading.file path) with
        | error cause =>
          rw [taken] at accepted
          cases accepted
        | ok found => exact ⟨found,rfl⟩
      obtain ⟨bytes,value,there,holds,taken⟩ := Settings.read_of_load loaded
      rcases Settings.ofValue_eq_ok_iff.mp taken with ⟨rfl,_⟩ | ⟨entries,rfl,acceptable,_⟩
      · exact ⟨{},.empty named there holds⟩
      · exact ⟨_,.mapping named there holds acceptable⟩

theorem laid_run {level : Option Log.Level} {limit : Option Int} {asJson drops : Bool}
    (levelled : request.logLevel = level.map .value)
    (task : request.task = .run (limit.map .value) asJson drops) (written : Written) :
    written.settings.laid request.overrides = (written.under level limit drops).settings := by
  unfold overrides
  rw [levelled,task]
  cases level <;> cases limit <;> cases drops <;> rfl

theorem laid_compile {level : Option Log.Level} {output : Option (Given Path)}
    (levelled : request.logLevel = level.map .value) (task : request.task = .compile output)
    (written : Written) :
    written.settings.laid request.overrides = (written.under level none false).settings := by
  unfold overrides
  rw [levelled,task]
  cases level <;> rfl

end Request

def printed (asJson : Bool) (sink : List Emission) (outcome : Except RunError (List RunResult)) :
    String :=
  if asJson then (outcome.toOption.map rendered).getD "" else emittedText sink

def failureOf (outcome : Except RunError (List RunResult)) : Option Failure :=
  match outcome with
  | .ok _ => none
  | .error cause => some (.run cause)

def Reports (severity : Nat) (asJson : Bool) (interpreter : Interpreter) (patience : Nat)
    (report : Option Report) : Prop :=
  match interpreter.interpretAll patience [] with
  | none => report = none
  | some (sink,outcome) =>
    ∃ log, report = some ⟨printed asJson sink outcome,log,severity,failureOf outcome⟩

theorem runOutput_eq (asJson keeps : Bool) (program : Program) (limit : Option Int)
    (executions : List Execution) : runOutput asJson keeps executions =
      printed asJson (Interpreter.shown ⟨program,limit,!asJson,asJson && keeps⟩
        (executions.flatMap Execution.emissions)) (executions.mapM (Execution.result (asJson && keeps))) := by
  cases asJson with
  | false => exact (Execution.emissions_texts executions).symm
  | true =>
    simp only [runOutput,printed,if_true,Bool.true_and]
    cases executions.mapM (Execution.result keeps) <;> rfl

theorem failureOf_mapM (keepsHistory : Bool) (executions : List Execution) :
    failureOf (executions.mapM (Execution.result keepsHistory)) =
      (executions.findSome? (·.ending.error?)).map .run := by
  cases failure : executions.findSome? (·.ending.error?) with
  | none =>
    obtain ⟨results,_,all⟩ := Execution.mapM_result_ok failure
    rw [all]
    rfl
  | some cause =>
    rw [Execution.mapM_result_error failure]
    rfl

theorem runReport_reports {settings : Settings} {limit : Option Int} {keeps : Bool}
    (usable : settings.limit = .ok limit) (kept : settings.captureSteps = .bool keeps)
    (severity : Nat) (asJson : Bool) (log : List Log.Record) (program : Program) (patience : Nat) :
    Reports severity asJson ⟨program,limit,!asJson,asJson && keeps⟩ patience
      (runReport settings severity asJson log program patience) := by
  have allowance : settings.allowance = (limit,none) := by rw [Settings.allowance,usable]
  have keep : settings.captureSteps.isTrue = keeps := by rw [kept,Value.isTrue]
  unfold Reports
  rw [Interpreter.interpretAll_eq,runReport_eq,allowance,keep,runFailure_none]
  cases program.executeAll limit patience with
  | none => rfl
  | some executions =>
    refine ⟨log ++ executions.flatMap Execution.log,?_⟩
    rw [failureOf_mapM,← runOutput_eq]
    rfl

inductive Delivers (severity : Nat) (compiled : Except Assembly.CompileError Assembly.Listing) :
    Option (Given Path) → Answer → Prop where
  | failed {cause : Assembly.CompileError} (output : Option (Given Path)) (log : List Log.Record) :
      compiled = .error cause →
      Delivers severity compiled output (.report ⟨"",log,severity,some (.compile cause)⟩)
  | printed {listing : Assembly.Listing} (log : List Log.Record) : compiled = .ok listing →
      Delivers severity compiled none (.report ⟨listing.text,log,severity,none⟩)
  | saved {listing : Assembly.Listing} (path : Path) (log more : List Log.Record) :
      compiled = .ok listing → Delivers severity compiled (some (.value path))
        (.write path listing.text ⟨"",more,severity,none⟩
          fun cause => ⟨"",log,severity,some (.unwritable path cause)⟩)
  | unnamed {listing : Assembly.Listing} (log : List Log.Record) : compiled = .ok listing →
      Delivers severity compiled (some .nothing) (.report ⟨"",log,severity,some .noOutput⟩)

theorem compileAnswer_delivers {settings : Settings} {sizes : Assembly.Sizes}
    (sized : sizesOf settings = .ok sizes) (severity : Nat) (output : Option (Given Path))
    (log : List Log.Record) (program : Program) :
    Delivers severity (sizes.compile program) output (compileAnswer settings severity output log program) := by
  unfold compileAnswer
  rw [sized]
  simp only
  cases compiled : sizes.compile program with
  | error cause => cases cause <;> exact .failed _ _ rfl
  | ok listing =>
    rcases output with _ | path | _
    · exact .printed _ rfl
    · exact .saved _ _ _ rfl
    · exact .unnamed _ rfl

theorem Written.leastSeverity_eq (written : Written) :
    written.settings.leastSeverity = .ok (written.logLevel.getD usualLevel).severity := by
  simp only [Settings.leastSeverity,Written.settings,Log.severity?_name]

theorem Written.limit_eq (written : Written) : written.settings.limit = .ok written.maxSteps := by
  unfold Settings.limit Written.settings
  cases written.maxSteps <;> rfl

theorem Written.sizes_eq (written : Written) : sizesOf written.settings = .ok written.sizes := rfl

structure Layered (request : Request) (reading : Reading) (written : Written) (patience : Nat) : Prop where
  fields : ∃ settings, request.settings reading = .ok settings ∧ ∀ field, settings.get field =
    ((Settings.given request.overrides).reverse.lookup field).getD (written.settings.get field)
  merged : ∀ base : Settings,
    base.merged (request.overrides.map fun (field,value) => (field.name,value)) =
      .ok (base.laid request.overrides)
  runs : ∀ (level : Option Log.Level) (limit : Option Int) (asJson drops : Bool) (program : Program),
    request.logLevel = level.map .value → request.task = .run (limit.map .value) asJson drops →
    (readProgram request.source reading).2 = .ok program → ∃ report,
      request.answer reading patience = report.map .report ∧
      Reports ((level.or written.logLevel).getD usualLevel).severity asJson
        ⟨program,limit.or written.maxSteps,!asJson,asJson && (!drops && written.captureSteps.getD true)⟩
        patience report
  compiles : ∀ (level : Option Log.Level) (output : Option (Given Path)) (program : Program),
    request.logLevel = level.map .value → request.task = .compile output →
    (readProgram request.source reading).2 = .ok program → ∃ answer,
      request.answer reading patience = some answer ∧
      Delivers ((level.or written.logLevel).getD usualLevel).severity
        (written.sizes.compile program) output answer

theorem layered {request : Request} {reading : Reading} {written : Written}
    (sets : request.FileSets reading written) (patience : Nat) :
    Layered request reading written patience where
  fields := ⟨_,sets.settings_eq,Settings.get_putAll _ written.settings⟩
  merged := Settings.merged_named request.overrides
  runs := by
    intro level limit asJson drops program levelled task parsed
    have set := sets.settings_eq
    rw [Request.laid_run levelled task] at set
    have prepared : request.Prepared reading _ _ program := ⟨set,Written.leastSeverity_eq _,parsed⟩
    have answered := Request.answer_of_prepared prepared patience
    rw [task] at answered
    have kept : (written.under level limit drops).settings.captureSteps =
        .bool (!drops && written.captureSteps.getD true) := by cases drops <;> rfl
    exact ⟨_,answered,runReport_reports (Written.limit_eq _) kept _ asJson _ program patience⟩
  compiles := by
    intro level output program levelled task parsed
    have set := sets.settings_eq
    rw [Request.laid_compile levelled task] at set
    have prepared : request.Prepared reading _ _ program := ⟨set,Written.leastSeverity_eq _,parsed⟩
    have answered := Request.answer_of_prepared prepared patience
    rw [task] at answered
    exact ⟨_,answered,compileAnswer_delivers (Written.sizes_eq _) _ output _ program⟩

structure LastGivenWins (base : Settings) (layers : List (List (String × Value))) (request : Request)
    (reading : Reading) (written : Written) (patience : Nat) : Prop where
  merging : Settings.LayersCount base layers
  own : ∀ layer, (∃ entry ∈ layer, entry.1 = Settings.ownName) →
    base.merged layer = .error ⟨Settings.ownName⟩
  invocation : Layered request reading written patience
  accepted : ∀ (other : Request) (reading : Reading) (settings : Settings),
    other.settings reading = .ok settings → ∃ written, other.FileSets reading written

theorem last_given_wins {layers : List (List (String × Value))} (free : Settings.Free layers)
    (base : Settings) {request : Request} {reading : Reading} {written : Written}
    (sets : request.FileSets reading written) (patience : Nat) :
    LastGivenWins base layers request reading written patience where
  merging := Settings.layers_count free base
  own := fun _ ⟨_,member,own⟩ => Settings.merged_own member own base
  invocation := layered sets patience
  accepted := fun _ _ _ => Request.exists_fileSets

def quietFile : List UInt8 :=
  Utf8.encode "interpreter: \x7bmax_steps: 7, capture_steps: false\x7d\n".toList

def quietEntries : Settings.Entries :=
  [(.text "interpreter",.map [(.text "max_steps",.int 7),(.text "capture_steps",.bool false)])]

def quietRequest : Request := ⟨some (.value (Path.of "c.yaml")),some (.value .info),Path.of "a.tur",
  .run (some (.value 0)) true false⟩

def twoLayers : List (List (String × Value)) :=
  [[("max_steps",.int 0),("colour",.null)],[("max_steps",.null),("capture_steps",.bool false)]]

def quietReading : Reading := ⟨fun _ => .ok quietFile,Yaml.shallowReader⟩

theorem last_given_wins_quiet : Settings.Free twoLayers ∧
    quietRequest.FileSets quietReading (.of quietEntries) ∧
    LastGivenWins {} twoLayers quietRequest quietReading (.of quietEntries) 0 := by
  have free : Settings.Free twoLayers := by
    unfold Settings.Free
    decide
  have holds : Yaml.shallowReader quietFile = .ok (.map quietEntries) :=
    Yaml.read_of_describes (by decide +kernel)
  have taken : Settings.ofValue (.map quietEntries) =
      .ok ⟨.int 7,.bool false,.int 256,.int 256,.text "WARNING"⟩ := rfl
  have sets : quietRequest.FileSets quietReading (.of quietEntries) := by
    rcases Settings.ofValue_eq_ok_iff.mp taken with ⟨⟨⟩,_⟩ | ⟨_,⟨⟩,acceptable,_⟩
    exact .mapping rfl rfl holds acceptable
  exact ⟨free,sets,last_given_wins free {} sets 0⟩

theorem own_name_refused : ¬ ∀ (base : Settings) (layer : List (String × Value)),
    (∀ entry ∈ layer, entry.2 = .null) → base.merged layer = .ok base := by
  intro claim
  cases claim {} [("self",.null)] (by simp)

end CommandLine

end TapeMachine
