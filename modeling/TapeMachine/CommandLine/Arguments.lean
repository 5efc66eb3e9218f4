import TapeMachine.Text.Digit

-- Command line arguments, taken apart into options with their values and plain operands.
namespace TapeMachine.CommandLine

abbrev Options (α : Type) := List (String × α)

inductive Piece (α : Type) where
  | operand
  | separator
  | option (setting : α) (isShort : Bool) (attached : Option (List Char))
  | stranger

structure Argument (α : Type) where
  text : String
  piece : Piece α

def isNegativeNumber (text : List Char) : Bool :=
  match text with
  | '-' :: rest =>
    let rest := if rest.getLast? = some '\n' then rest.dropLast else rest
    let isDigit c := (Text.digit? c).isSome
    let whole := rest.takeWhile isDigit
    match rest.drop whole.length with
    | [] => !whole.isEmpty
    | c :: fraction => c = '.' && !fraction.isEmpty && fraction.all isDigit
  | _ => false

def splitAtEquals (text : List Char) : List Char × Option (List Char) :=
  let before := text.takeWhile (· ≠ '=')
  (before,if before.length = text.length then none else some (text.drop (before.length+1)))

def abbreviated (options : Options α) (text : List Char) : List (Piece α) :=
  let (before,attached) := splitAtEquals text
  if ['-','-'].isPrefixOf text then
    options.filterMap fun (name,setting) =>
      if before.isPrefixOf name.toList then
        some (.option setting false attached)
      else none
  else
    options.filterMap fun (name,setting) =>
      if name.toList = text.take 2 then
        some (.option setting true (some (text.drop 2)))
      else if text.isPrefixOf name.toList then some (.option setting true none)
      else none

def isLong (name : List Char) : Bool := ['-','-'].isPrefixOf name

-- Nothing is found if more than one option can be meant. An argument that could be an option
-- but is a number, or has a blank in it, is an operand after all.
def pieceOf? (options : Options α) (argument : String) : Option (Piece α) :=
  let text := argument.toList
  if text.head? ≠ some '-' then some .operand
  else match options.lookup argument with
  | some setting => some (.option setting (!isLong text) none)
  | none =>
    if text.length = 1 then some .operand
    else
      let (before,attached) := splitAtEquals text
      match attached,options.lookup (String.ofList before) with
      | some value,some setting =>
        some (.option setting (!isLong before) (some value))
      | _,_ =>
        match abbreviated options text with
        | [piece] => some piece
        | [] =>
          if isNegativeNumber text ∨ ' ' ∈ text then some .operand else some .stranger
        | _ => none

def classify? (options : Options α) : List String → Option (List (Argument α))
  | [] => some []
  | argument :: rest =>
    if argument = "--" then
      some (⟨argument,.separator⟩ :: rest.map fun operand => ⟨operand,.operand⟩)
    else do return ⟨argument,← pieceOf? options argument⟩ :: (← classify? options rest)

inductive Given (α : Type) where
  | value (value : α)
  | nothing
  deriving DecidableEq, Repr

def Given.attached (text : List Char) : Given String :=
  if text = ['-','-'] then .nothing else .value (String.ofList text)

def Given.map (f : α → β) : Given α → Given β
  | value found => .value (f found)
  | nothing => .nothing

inductive Action (α : Type) where
  | switch (setting : α)
  | assign (setting : α) (given : Given String)
  | operand (text : String)
  | stranger
  | mistake

def takeBare (takesValue : α → Bool) (next : Option String) (setting : α)
    (before : List (Action α)) : List (Action α) × Bool :=
  if takesValue setting then
    match next with
    | some value => (before ++ [.assign setting (.value value)],true)
    | none => ([.mistake],false)
  else (before ++ [.switch setting],false)

-- Reads an option with what is attached to it. Behind a short option that takes no value
-- another short one has to stand, and so on; the last of them may have its value behind it.
def takeJoined (options : Options α) (takesValue : α → Bool) (next : Option String) (setting : α)
    (isShort : Bool) (text : List Char) (before : List (Action α)) : List (Action α) × Bool :=
  if takesValue setting then (before ++ [.assign setting (.attached text)],false)
  else match text with
  | [] => ([.mistake],false)
  | c :: more =>
    match isShort,options.lookup (String.ofList ['-',c]) with
    | true,some other =>
      let before := before ++ [.switch setting]
      match more with
      | [] => takeBare takesValue next other before
      | d :: rest => takeJoined options takesValue next other true (d :: rest) before
    | _,_ => ([.mistake],false)

def takeOption (options : Options α) (takesValue : α → Bool) (next : Option String) (setting : α)
    (isShort : Bool) : Option (List Char) → List (Action α) × Bool
  | none => takeBare takesValue next setting []
  | some attached => takeJoined options takesValue next setting isShort attached []

def nextOperand? : List (Argument α) → Option String
  | ⟨text,.operand⟩ :: _ => some text
  | _ => none

end TapeMachine.CommandLine
