import TapeMachine.Yaml.Fault

-- The marks and scalars that structure a document, once its layout has been read.
namespace TapeMachine.Yaml

inductive Content where
  | plain (text : String)
  | quoted (text : String)
  | quotedNumbers (numbers : List Nat)
  deriving DecidableEq, Repr

def Content.ofNumbers (numbers : List Nat) : Content :=
  if numbers.all (·.isValidChar) then quoted (String.ofList (numbers.map Char.ofNat))
  else quotedNumbers numbers

inductive Token where
  | documentStart | documentEnd
  | listStart | mapStart | blockEnd
  | flowListStart | flowListEnd | flowMapStart | flowMapEnd
  -- What stands before a list's item, between the parts of a flow collection, before a key and
  -- before a key's value.
  | item | separator | key | value
  | scalar (content : Content)
  | streamEnd
  | broken (fault : Fault)
  deriving DecidableEq, Repr

end TapeMachine.Yaml
