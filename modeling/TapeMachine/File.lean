import TapeMachine.Text.Quoted
import TapeMachine.Text.Parts
import TapeMachine.Text.Utf8

-- Files by their paths, as far as reading and writing whole files needs them.
namespace TapeMachine

-- The parts of a path from the root or from the working directory. Empty parts and those that
-- stay where they are have been left out; the way up is kept, since only the disk knows where
-- it leads.
structure Path where
  root : String
  parts : List String
  deriving DecidableEq, Repr

namespace Path

def rootOf (text : List Char) : String :=
  match (text.takeWhile (· = '/')).length with
  | 0 => ""
  | 2 => "//"
  | _ => "/"

def of (text : String) : Path :=
  ⟨rootOf text.toList,
    ((Text.partsAt '/' text.toList).map String.ofList).filter fun part => part ≠ "" ∧ part ≠ "."⟩

def text (path : Path) : String :=
  if path.root = "" ∧ path.parts = [] then "." else path.root ++ "/".intercalate path.parts

end Path

inductive FileError where
  | missing
  | notDirectory
  | isDirectory
  | longName
  | nulCharacter
  | other (number : Nat) (reason : String)
  deriving DecidableEq, Repr

def FileError.message (path : Path) (cause : FileError) : String :=
  let name := Text.quoted path.text
  match cause with
  | missing => s!"[Errno 2] No such file or directory: {name}"
  | notDirectory => s!"[Errno 20] Not a directory: {name}"
  | isDirectory => s!"[Errno 21] Is a directory: {name}"
  | longName => s!"[Errno 36] File name too long: {name}"
  | nulCharacter => "embedded null byte"
  | other number reason => s!"[Errno {number}] {reason}: {name}"

-- What holds the files that paths lead to. Writing opens the file first, so that it may fail
-- there or later, and leave the state as it was or not.
structure FileSystem (State : Type) where
  read : State → Path → Except FileError (List UInt8)
  write : State → Path → List UInt8 → Except FileError Unit × State

end TapeMachine
