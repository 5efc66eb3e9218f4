import TapeMachine.CommandLine.Session
import TapeMachine.Yaml.Document

-- The program: arguments and files come in, the answer goes out.
open TapeMachine TapeMachine.CommandLine

def usage : String :=
  "usage: turir [-h] [--config CONFIG] [--log-level \x7bCRITICAL,ERROR,WARNING,INFO,DEBUG\x7d]\n" ++
  "             command ...\n\n" ++
  "  run [-h] [--max-steps MAX_STEPS] [--json] [--no-steps] source\n" ++
  "  compile [-h] [--output OUTPUT] source\n"

def systemNumber (code : UInt32) : Nat := min code.toNat (UInt32.size - code.toNat)

def fileError : IO.Error → FileError
  | .noFileOrDirectory _ _ _ => .missing
  | .inappropriateType _ code _ =>
    if systemNumber code = 20 then .notDirectory else .isDirectory
  | .invalidArgument _ code reason =>
    if systemNumber code = 36 then .longName else .other (systemNumber code) reason
  | .permissionDenied _ code reason => .other (systemNumber code) reason
  | error => .other 5 (toString error)

def readBytes (path : Path) : IO (Except FileError (List UInt8)) := do
  try
    return .ok (← IO.FS.readBinFile path.text).toList
  catch error => return .error (fileError error)

def documentRoom : Nat := 488

-- Runs without a limit are given more and more patience, for as long as they take.
partial def settle (request : Request) (reading : Reading) (patience : Nat) : IO Answer :=
  match request.answer reading patience with
  | some answer => pure answer
  | none => settle request reading (2*patience)

def perform : Answer → IO Report
  | .report report => pure report
  | .write path text written failed => do
    try
      IO.FS.writeFile path.text text
      return written
    catch error => return failed (fileError error)

def main (arguments : List String) : IO UInt32 := do
  match Request.read arguments with
  | .error .help =>
    IO.print usage
    return 0
  | .error .misuse =>
    IO.eprint usage
    return 2
  | .ok request =>
    let source ← readBytes request.source
    let config ← match request.config with
      | some (.value path) => readBytes path
      | _ => pure (.error .missing)
    let file path := if request.config = some (.value path) then config else source
    let reading : Reading := ⟨file,Yaml.plainReader documentRoom⟩
    let report ← perform (← settle request reading 1000000)
    IO.print report.output
    IO.eprint report.errorOutput
    if let some failure := report.failure then
      if failure.isUnforeseen then IO.eprintln failure.message
    return report.exitCode.toUInt32
