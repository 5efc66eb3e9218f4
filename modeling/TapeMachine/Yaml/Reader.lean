import TapeMachine.Yaml.Value

-- What reads documents. Nothing is relied on but that it answers.
namespace TapeMachine.Yaml

-- Why a document has no value: it is refused, with what is said about it, or reading itself
-- breaks down.
inductive ReadError where
  | malformed (diagnosis : String)
  | broken (reason : String)
  deriving DecidableEq, Repr

abbrev Reader := List UInt8 → Except ReadError Value

end TapeMachine.Yaml
