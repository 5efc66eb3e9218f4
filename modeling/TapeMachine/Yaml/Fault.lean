import TapeMachine.Yaml.Timestamp
import TapeMachine.Text.Digit

-- Why documents have no value.
namespace TapeMachine.Yaml

-- Most faults are in a document's form. Besides, its bytes may not be characters, it may be
-- too deep, and scalars may have the form of a number, a character or a timestamp and mean
-- none.
inductive Fault where
  | malformed
  | undecodable
  | tooDeep
  | noDigits (base : Nat)
  | longNumeral (digits : Nat)
  | overflow
  | noCharacter
  | timestamp (cause : TimeFault)
  deriving DecidableEq, Repr

def Fault.message : Fault → String
  | malformed => "malformed document"
  | undecodable => "the document is not valid UTF-8"
  | tooDeep => "the document is too deep"
  | noDigits base => s!"invalid literal for int() with base {base}: ''"
  | longNumeral digits => Text.beyondLimit s!": value has {digits} digits"
  | overflow => "a number is too large"
  | noCharacter => "chr() arg not in range(0x110000)"
  | timestamp cause => cause.message

end TapeMachine.Yaml
