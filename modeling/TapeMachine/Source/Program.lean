import TapeMachine.Source
import TapeMachine.Program.Parser

-- Sources as they are handed in, and the programs in them.
namespace TapeMachine

inductive Source where
  | text (characters : List Char)
  | bytes (encoded : List UInt8)
  deriving DecidableEq, Repr

inductive SourceError where
  | invalidByte (cause : InvalidByte)
  | parse (cause : ParseError)
  deriving DecidableEq, Repr

namespace Source

def characters : Source → Except InvalidByte (List Char)
  | text characters => .ok characters
  | bytes encoded => decodeSource encoded

def cursor (source : Source) : Except InvalidByte Cursor := source.characters.map .start

def parser (source : Source) : Except InvalidByte Parser := source.characters.map .start

def program (source : Source) : Except SourceError Program :=
  match source.parser with
  | .error cause => .error (.invalidByte cause)
  | .ok parser =>
    match Parser.program parser with
    | .ok program _ => .ok program
    | .error cause _ => .error (.parse cause)

end Source

end TapeMachine
