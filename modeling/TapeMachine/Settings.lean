import TapeMachine.Log
import TapeMachine.Yaml.Value
import TapeMachine.Text.Capital

-- What a user may set, and how settings are laid over each other.
namespace TapeMachine

open Yaml (Value)

inductive Field where
  | maxSteps | captureSteps | tapeSize | printBufferSize | logLevel
  deriving DecidableEq, Repr

namespace Field

def all : List Field := [maxSteps,captureSteps,tapeSize,printBufferSize,logLevel]

def name : Field → String
  | maxSteps => "max_steps"
  | captureSteps => "capture_steps"
  | tapeSize => "tape_size"
  | printBufferSize => "print_buffer_size"
  | logLevel => "log_level"

def named? (name : String) : Option Field := all.find? (·.name = name)

end Field

def usualSize : Int := 256
def usualLevel : Log.Level := .warning

-- Fields hold values of whatever kind they are given. Values that come from a file have been
-- judged before; others show when they are used whether they can be.
structure Settings where
  maxSteps : Value := .null
  captureSteps : Value := .bool true
  tapeSize : Value := .int usualSize
  printBufferSize : Value := .int usualSize
  logLevel : Value := .text usualLevel.name
  deriving Repr

structure UnknownField where
  name : String
  deriving DecidableEq, Repr

inductive Unusable where
  | mistyped (field : Field)
  | unknownLevel (name : String)
  deriving DecidableEq, Repr

namespace Settings

def get (settings : Settings) : Field → Value
  | .maxSteps => settings.maxSteps
  | .captureSteps => settings.captureSteps
  | .tapeSize => settings.tapeSize
  | .printBufferSize => settings.printBufferSize
  | .logLevel => settings.logLevel

def put (settings : Settings) (value : Value) : Field → Settings
  | .maxSteps => { settings with maxSteps := value }
  | .captureSteps => { settings with captureSteps := value }
  | .tapeSize => { settings with tapeSize := value }
  | .printBufferSize => { settings with printBufferSize := value }
  | .logLevel => { settings with logLevel := value }

def putAll (values : List (Field × Value)) (settings : Settings) : Settings :=
  values.foldl (fun settings (field,value) => settings.put value field) settings

def given (overrides : List (α × Value)) : List (α × Value) :=
  overrides.filter fun (_,value) => !value.isNull

def laid (overrides : List (Field × Value)) (settings : Settings) : Settings :=
  settings.putAll (given overrides)

def resolve : List (String × Value) → Except UnknownField (List (Field × Value))
  | [] => .ok []
  | (name,value) :: values =>
    match Field.named? name with
    | some field => (resolve values).map ((field,value) :: ·)
    | none => .error ⟨name⟩

-- The settings go by this name themselves, so that nothing can be laid over them under it.
def ownName : String := "self"

def merged (overrides : List (String × Value)) (settings : Settings) :
    Except UnknownField Settings :=
  if overrides.any (·.1 = ownName) then .error ⟨ownName⟩
  else (resolve (given overrides)).map (settings.putAll ·)

def ofFields (values : List (String × Value)) : Except UnknownField Settings :=
  (resolve values).map (putAll · {})

def leastSeverity (settings : Settings) : Except Unusable Nat :=
  match settings.logLevel with
  | .text name =>
    match Log.severity? name with
    | some severity => .ok severity
    | none => .error (.unknownLevel name)
  | .rawText numbers => .error (.unknownLevel (Value.rawText numbers).plain)
  | _ => .error (.mistyped .logLevel)

def whole (settings : Settings) (field : Field) : Except Unusable Int :=
  match (settings.get field).whole? with
  | some n => .ok n
  | none => .error (.mistyped field)

def limit (settings : Settings) : Except Unusable (Option Int) :=
  if settings.maxSteps.isNull then .ok none else (settings.whole .maxSteps).map some

end Settings

def Log.Level.inAnyCase? (name : String) : Option Log.Level := Log.Level.named? (Text.capitals name)

end TapeMachine
