import TapeMachine.Settings
import TapeMachine.File
import TapeMachine.Yaml.Reader

-- Settings as a file describes them.
namespace TapeMachine

open Yaml (Value)

inductive SettingsError where
  | notMapping
  | unknownKeys (keys : List Value)
  | unorderedKeys (keys : List Value)
  | blockNotMapping (block : String)
  | notPositive (name : String) (found : Value)
  | notBoolean (name : String) (found : Value)
  | tapeTooLarge (size : Int)
  | unknownLevel (found : Value)
  | unshowable (reason : String)
  deriving Repr

-- The assembled head's cell is one byte.
def greatestTapeSize : Int := 256

def SettingsError.message : SettingsError → String
  | notMapping => "The configuration file must describe a mapping."
  | unknownKeys keys =>
    let names := ", ".intercalate (keys.map Value.plain)
    s!"Unknown configuration keys: {names}."
  | unorderedKeys _ => "configuration keys without an order"
  | blockNotMapping block => s!"The '{block}' block must be a mapping."
  | notPositive name found => s!"'{name}' must be a positive integer, got {found.shown}."
  | notBoolean name found => s!"'{name}' must be a boolean, got {found.shown}."
  | tapeTooLarge size => s!"'compiler.tape_size' cannot exceed {greatestTapeSize}, got {size}."
  | unknownLevel found =>
    let levels := ", ".intercalate (Log.Level.all.map Log.Level.name)
    s!"Invalid log level {found.shown}. Allowed values: {levels}."
  | unshowable reason => reason

def SettingsError.shows : SettingsError → List Value
  | unknownKeys keys => keys
  | notPositive _ found => [found]
  | notBoolean _ found => [found]
  | tapeTooLarge size => [.int size]
  | unknownLevel found => [found]
  | _ => []

def SettingsError.told (cause : SettingsError) : SettingsError :=
  match cause.shows.findSome? Value.unshown? with
  | some reason => .unshowable reason
  | none => cause

namespace Settings

abbrev Entries := List (Value × Value)

-- A mapping under this key holds the settings; without it they stand on their own.
def unwrapped (entries : Entries) : Entries :=
  match Value.get? "turir" entries with
  | some (.map inner) => inner
  | _ => entries

def knownKeys : List String := ["interpreter","compiler","log_level"]

def checkKeys (entries : Entries) : Except SettingsError Unit :=
  let unknown := (entries.map (·.1)).filter fun key => knownKeys.all fun name => !key.isText name
  match unknown with
  | [] => .ok ()
  | first :: others =>
    if others.all (·.kind = first.kind) then .error (.unknownKeys (unknown.mergeSort Value.le))
    else .error (.unorderedKeys unknown)

def block (name : String) (entries : Entries) : Except SettingsError Entries :=
  match Value.get? name entries with
  | none => .ok []
  | some .null => .ok []
  | some (.map inner) => .ok inner
  | some _ => .error (.blockNotMapping name)

def positive (name : String) : Value → Except SettingsError Int
  | .int n => if 0 < n then .ok n else .error (.notPositive name (.int n))
  | found => .error (.notPositive name found)

def readMaxSteps (entries : Entries) : Except SettingsError (Option Int) :=
  match Value.get? "max_steps" entries with
  | none => .ok none
  | some .null => .ok none
  | some found => (positive "interpreter.max_steps" found).map some

def readCaptureSteps (entries : Entries) : Except SettingsError Bool :=
  match Value.get? "capture_steps" entries with
  | none => .ok true
  | some (.bool keep) => .ok keep
  | some found => .error (.notBoolean "interpreter.capture_steps" found)

def readSize (name : String) (entries : Entries) : Except SettingsError Int :=
  match Value.get? name entries with
  | none => .ok usualSize
  | some found => positive ("compiler." ++ name) found

def readTapeSize (entries : Entries) : Except SettingsError Int := do
  let size ← readSize "tape_size" entries
  if greatestTapeSize < size then .error (.tapeTooLarge size) else return size

def readLevel (entries : Entries) : Except SettingsError Log.Level :=
  match Value.get? "log_level" entries with
  | none => .ok usualLevel
  | some found =>
    match Log.Level.inAnyCase? found.plain with
    | some level => .ok level
    | none => .error (.unknownLevel found)

def ofEntries (entries : Entries) : Except SettingsError Settings := do
  let entries := unwrapped entries
  checkKeys entries
  let interpreter ← block "interpreter" entries
  let maxSteps ← readMaxSteps interpreter
  let captureSteps ← readCaptureSteps interpreter
  let compiler ← block "compiler" entries
  let tapeSize ← readTapeSize compiler
  let printBufferSize ← readSize "print_buffer_size" compiler
  let logLevel ← readLevel entries
  return ⟨(maxSteps.map .int).getD .null,.bool captureSteps,.int tapeSize,.int printBufferSize,
    .text logLevel.name⟩

def ofValue : Value → Except SettingsError Settings
  | .null => .ok {}
  | .map entries => (ofEntries entries).mapError SettingsError.told
  | _ => .error .notMapping

end Settings

inductive LoadError where
  | unreadable (name : String) (path : Path) (cause : FileError)
  | malformed (name diagnosis : String)
  | broken (reason : String)
  | settings (cause : SettingsError)
  deriving Repr

def LoadError.message : LoadError → String
  | unreadable name path cause => s!"Cannot read configuration file {name}: {cause.message path}"
  | malformed name diagnosis => s!"Invalid YAML in {name}: {diagnosis}"
  | broken reason => reason
  | settings cause => cause.message

def Settings.load (reader : Yaml.Reader) (name : String) (path : Path)
    (content : Except FileError (List UInt8)) : Except LoadError Settings :=
  match content with
  | .error cause => .error (.unreadable name path cause)
  | .ok bytes =>
    match reader bytes with
    | .error (.malformed diagnosis) => .error (.malformed name diagnosis)
    | .error (.broken reason) => .error (.broken reason)
    | .ok value => (Settings.ofValue value).mapError .settings

end TapeMachine
