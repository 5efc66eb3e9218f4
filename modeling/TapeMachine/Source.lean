import TapeMachine.Token
import TapeMachine.Text.Utf8

-- Program text as it comes in files: bytes that have to be characters first.
namespace TapeMachine

-- The first byte at which no character begins. Its column counts bytes, since what stands
-- there has no characters to count.
structure InvalidByte where
  position : Position
  byte : UInt8
  deriving DecidableEq, Repr

def InvalidByte.message (file : String) (cause : InvalidByte) : String :=
  let place := cause.position.inFile file
  let digits := String.ofList (Text.hex 2 cause.byte.toNat)
  s!"{place}: invalid UTF-8 byte 0x{digits}"

def newline : UInt8 := 10

def Position.behind (bytes : List UInt8) : Position :=
  ⟨bytes.count newline,(bytes.reverse.takeWhile (· ≠ newline)).length⟩

def decodeSource (bytes : List UInt8) : Except InvalidByte (List Char) :=
  match Utf8.decode bytes with
  | .ok text => .ok text
  | .error undecoded =>
    .error ⟨.behind (bytes.take (bytes.length - undecoded.length)),undecoded.headD 0⟩

end TapeMachine
