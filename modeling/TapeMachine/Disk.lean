import TapeMachine.File

-- A file system that holds directories and files by their names.
namespace TapeMachine

-- Names without a root begin in the working directory. Above it nothing is known but that the
-- directories on the way up are there and that files can be put into them.
structure Disk where
  directories : List (List String)
  files : List (List String × List UInt8)
  deriving DecidableEq, Repr

inductive Spot where
  | file (name : List String) (bytes : List UInt8)
  | directory
  | vacant (name : List String)
  | sink

def longestPart : Nat := 255
def longestPath : Nat := 4095

def byteCount (text : String) : Nat := (Utf8.encode text.toList).length

def sinks : List (List String) := [["dev","null"],["dev","stdout"],["dev","stderr"]]

namespace Disk

def holdsDirectory (disk : Disk) (name : List String) : Bool := name = [] || name ∈ disk.directories

-- Where the parts of a path lead that goes up from the working directory. A name keeps the
-- way up in front of it.
def above (disk : Disk) (parts : List String) : Except FileError Spot :=
  match parts.dropWhile (· = "..") with
  | [] => .ok .directory
  | part :: others =>
    if longestPart < byteCount part then .error .longName
    else if others ≠ [] then .error .missing
    else match disk.files.lookup parts with
    | some bytes => .ok (.file parts bytes)
    | none => .ok (.vacant parts)

def follow (disk : Disk) : List String → List String → Except FileError Spot
  | _,[] => .ok .directory
  | here,part :: parts =>
    if part = ".." then
      if here = [] then disk.above (part :: parts) else disk.follow here.dropLast parts
    else if longestPart < byteCount part then .error .longName
    else
      let there := here ++ [part]
      if disk.holdsDirectory there then disk.follow there parts
      else match disk.files.lookup there with
      | some bytes => if parts = [] then .ok (.file there bytes) else .error .notDirectory
      | none => if parts = [] then .ok (.vacant there) else .error .missing

def followRoot (disk : Disk) : List String → List String → Except FileError Spot
  | _,[] => .ok .directory
  | here,part :: parts =>
    if part = ".." then disk.followRoot here.dropLast parts
    else if longestPart < byteCount part then .error .longName
    else
      let there := here ++ [part]
      if disk.holdsDirectory ("/" :: there) then disk.followRoot there parts
      else if there ∈ sinks then if parts = [] then .ok .sink else .error .notDirectory
      else match disk.files.lookup ("/" :: there) with
      | some bytes => if parts = [] then .ok (.file ("/" :: there) bytes) else .error .notDirectory
      | none => if parts = [] then .ok (.vacant ("/" :: there)) else .error .missing

def find (disk : Disk) (path : Path) : Except FileError Spot :=
  if '\x00' ∈ path.text.toList then .error .nulCharacter
  else if longestPath < byteCount path.text then .error .longName
  else if path.root = "" then disk.follow [] path.parts
  else disk.followRoot [] path.parts

def read (disk : Disk) (path : Path) : Except FileError (List UInt8) :=
  match disk.find path with
  | .ok (.file _ bytes) => .ok bytes
  | .ok .sink => .ok []
  | .ok .directory => .error .isDirectory
  | .ok (.vacant _) => .error .missing
  | .error cause => .error cause

def put (disk : Disk) (name : List String) (bytes : List UInt8) : Disk :=
  { disk with files := disk.files.filter (·.1 ≠ name) ++ [(name,bytes)] }

def write (disk : Disk) (path : Path) (bytes : List UInt8) : Except FileError Unit × Disk :=
  match disk.find path with
  | .ok (.file name _) => (.ok (),disk.put name bytes)
  | .ok (.vacant name) => (.ok (),disk.put name bytes)
  | .ok .sink => (.ok (),disk)
  | .ok .directory => (.error .isDirectory,disk)
  | .error cause => (.error cause,disk)

def system : FileSystem Disk := ⟨read,write⟩

end Disk

end TapeMachine
