import TapeMachine.CommandLine.Arguments
import TapeMachine.File
import TapeMachine.Settings

-- What a user asks for on the command line.
namespace TapeMachine.CommandLine

inductive Task where
  | run (maxSteps : Option (Given Int)) (asJson dropSteps : Bool)
  | compile (output : Option (Given Path))
  deriving DecidableEq, Repr

structure Request where
  config : Option (Given Path)
  logLevel : Option (Given Log.Level)
  source : Path
  task : Task
  deriving DecidableEq, Repr

inductive Stop where
  | help
  | misuse
  deriving DecidableEq, Repr

inductive Setting where
  | help | config | logLevel | maxSteps | json | noSteps | output
  deriving DecidableEq, Repr

def Setting.takesValue : Setting → Bool
  | config | logLevel | maxSteps | output => true
  | help | json | noSteps => false

def helpOptions : Options Setting := [("-h",.help),("--help",.help)]

def commonOptions : Options Setting :=
  helpOptions ++ [("--config",.config),("--log-level",.logLevel)]

def runOptions : Options Setting :=
  helpOptions ++ [("--max-steps",.maxSteps),("--json",.json),("--no-steps",.noSteps)]

def compileOptions : Options Setting := helpOptions ++ [("--output",.output),("-o",.output)]

-- The settings so far. Of a repeated option the last value counts, and strangers are a mistake
-- only once everything else is in order.
structure Draft where
  config : Option (Given String) := none
  logLevel : Option (Given Log.Level) := none
  source : Option String := none
  maxSteps : Option (Given Int) := none
  json : Bool := false
  noSteps : Bool := false
  output : Option (Given String) := none
  strangers : Bool := false

namespace Draft

def switch (draft : Draft) : Setting → Except Stop Draft
  | .help => .error .help
  | .json => .ok { draft with json := true }
  | .noSteps => .ok { draft with noSteps := true }
  | _ => .error .misuse

def judged (meaning : String → Option α) : Given String → Except Stop (Given α)
  | .nothing => .ok .nothing
  | .value text =>
    match meaning text with
    | some found => .ok (.value found)
    | none => .error .misuse

def assign (draft : Draft) (given : Given String) : Setting → Except Stop Draft
  | .config => .ok { draft with config := some given }
  | .output => .ok { draft with output := some given }
  | .logLevel => do return { draft with logLevel := some (← judged Log.Level.inAnyCase? given) }
  | .maxSteps => do return { draft with maxSteps := some (← judged Text.integer? given) }
  | _ => .error .misuse

def act (draft : Draft) : Action Setting → Except Stop Draft
  | .switch setting => draft.switch setting
  | .assign setting given => draft.assign given setting
  | .operand text => .ok { draft with source := some text }
  | .stranger => .ok { draft with strangers := true }
  | .mistake => .error .misuse

def actAll (draft : Draft) : List (Action Setting) → Except Stop Draft
  | [] => .ok draft
  | action :: actions =>
    match draft.act action with
    | .error stop => .error stop
    | .ok draft => draft.actAll actions

end Draft

def withoutSeparator : List (Argument Setting) → List (Argument Setting)
  | ⟨_,.separator⟩ :: rest => rest
  | arguments => arguments

theorem withoutSeparator_length_le (arguments : List (Argument Setting)) :
    (withoutSeparator arguments).length ≤ arguments.length := by
  unfold withoutSeparator
  split <;> simp

def commandActions (options : Options Setting) (hasSource : Bool)
    (arguments : List (Argument Setting)) : List (Action Setting) :=
  match arguments with
  | [] => []
  | ⟨text,.operand⟩ :: rest =>
    if hasSource then .stranger :: commandActions options true rest
    else .operand text :: commandActions options true (withoutSeparator rest)
  | ⟨_,.separator⟩ :: rest =>
    if hasSource || rest.isEmpty then .stranger :: commandActions options hasSource rest
    else commandActions options false rest
  | ⟨_,.stranger⟩ :: rest => .stranger :: commandActions options hasSource rest
  | ⟨_,.option setting isShort attached⟩ :: rest =>
    let (actions,usedNext) :=
      takeOption options Setting.takesValue (nextOperand? rest) setting isShort attached
    actions ++ commandActions options hasSource (rest.drop usedNext.toNat)
termination_by arguments.length
decreasing_by
  all_goals have := withoutSeparator_length_le rest
  all_goals simp only [List.length_cons,List.length_drop]
  all_goals omega

def commonActions (arguments : List (Argument Setting)) : List (Action Setting) × List String :=
  match arguments with
  | [] => ([],[])
  | ⟨text,.operand⟩ :: rest => ([],text :: rest.map (·.text))
  | ⟨_,.separator⟩ :: _ => ([.mistake],[])
  | ⟨_,.stranger⟩ :: rest =>
    let (actions,command) := commonActions rest
    (.stranger :: actions,command)
  | ⟨_,.option setting isShort attached⟩ :: rest =>
    let (first,usedNext) :=
      takeOption commonOptions Setting.takesValue (nextOperand? rest) setting isShort attached
    let (actions,command) := commonActions (rest.drop usedNext.toNat)
    (first ++ actions,command)
termination_by arguments.length
decreasing_by
  all_goals simp only [List.length_cons,List.length_drop]
  all_goals omega

def readActions (options : Options Setting) (arguments : List String) (draft : Draft) :
    Except Stop Draft :=
  match classify? options arguments with
  | none => .error .misuse
  | some arguments => draft.actAll (commandActions options false arguments)

def Draft.request (draft : Draft) (task : Task) : Except Stop Request :=
  match draft.source with
  | none => .error .misuse
  | some source =>
    if draft.strangers then .error .misuse
    else .ok ⟨draft.config.map (·.map Path.of),draft.logLevel,Path.of source,task⟩

def Request.read (arguments : List String) : Except Stop Request :=
  match classify? commonOptions arguments with
  | none => .error .misuse
  | some arguments => do
    let (actions,command) := commonActions arguments
    let draft ← Draft.actAll {} actions
    match command with
    | "run" :: rest =>
      let draft ← readActions runOptions rest draft
      draft.request (.run draft.maxSteps draft.json draft.noSteps)
    | "compile" :: rest =>
      let draft ← readActions compileOptions rest draft
      draft.request (.compile (draft.output.map (·.map Path.of)))
    | _ => .error .misuse

end TapeMachine.CommandLine
