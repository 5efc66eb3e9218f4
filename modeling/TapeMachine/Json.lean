import TapeMachine.Text.Quoted

-- Values as indented JSON text.
namespace TapeMachine

inductive JsonValue where
  | text (value : String)
  | number (value : Int)
  | list (items : List JsonValue)
  | object (fields : List (String × JsonValue))

namespace JsonValue

def escapedChar (c : Char) : List Char :=
  if c = '"' ∨ c = '\\' then ['\\',c]
  else if c = '\n' then ['\\','n']
  else if c = '\r' then ['\\','r']
  else if c = '\t' then ['\\','t']
  else if c = '\x0c' then ['\\','f']
  else if c = '\x08' then ['\\','b']
  else if c.toNat < 0x20 then '\\' :: 'u' :: Text.hex 4 c.toNat
  else [c]

def quotedText (text : String) : String :=
  String.ofList ('"' :: text.toList.flatMap escapedChar ++ ['"'])

def indentWidth : Nat := 2

-- A line of its own for each part, one step deeper than the marks around them. Without parts
-- the marks stand together.
def enclosed (first last : String) (depth : Nat) (parts : List String) : String :=
  if parts.isEmpty then first ++ last
  else
    let outer := "\n".pushn ' ' (indentWidth*depth)
    let inner := "\n".pushn ' ' (indentWidth*(depth+1))
    first ++ inner ++ ("," ++ inner).intercalate parts ++ outer ++ last

mutual

def render (depth : Nat) : JsonValue → String
  | text value => quotedText value
  | number value => toString value
  | list items => enclosed "[" "]" depth (renderItems (depth+1) items)
  | object fields => enclosed "\x7b" "\x7d" depth (renderFields (depth+1) fields)

def renderItems (depth : Nat) : List JsonValue → List String
  | [] => []
  | item :: items => item.render depth :: renderItems depth items

def renderFields (depth : Nat) : List (String × JsonValue) → List String
  | [] => []
  | (name,value) :: fields =>
    (quotedText name ++ ": " ++ value.render depth) :: renderFields depth fields

end

end JsonValue

end TapeMachine
