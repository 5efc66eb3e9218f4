import TapeMachine.Text.Printable

-- Text as messages quote it: between quotation marks, with everything that could not be
-- seen or would end the quotation spelled out.
namespace TapeMachine.Text

def hex (width n : Nat) : List Char :=
  (List.range width).reverse.map fun place => Nat.digitChar (n / Nat.pow 16 place % 16)

def numbered (c : Char) : List Char :=
  if c.toNat < 0x100 then '\\' :: 'x' :: hex 2 c.toNat
  else if c.toNat < 0x10000 then '\\' :: 'u' :: hex 4 c.toNat
  else '\\' :: 'U' :: hex 8 c.toNat

def quotedChar (mark c : Char) : List Char :=
  if c = mark ∨ c = '\\' then ['\\',c]
  else if c = '\n' then ['\\','n']
  else if c = '\r' then ['\\','r']
  else if c = '\t' then ['\\','t']
  else if isPrintable c then [c]
  else numbered c

-- Apostrophes enclose the text, unless it holds an apostrophe and no double mark.
def quotationMark (text : List Char) : Char :=
  if '\'' ∈ text ∧ '"' ∉ text then '"' else '\''

def quoted (text : String) : String :=
  let mark := quotationMark text.toList
  String.ofList (mark :: text.toList.flatMap (quotedChar mark) ++ [mark])

def quotedNumber (mark : Char) (n : Nat) : List Char :=
  if n.isValidChar then quotedChar mark (Char.ofNat n) else '\\' :: 'u' :: hex 4 n

def quotedNumbers (numbers : List Nat) : String :=
  let mark := quotationMark (numbers.map Char.ofNat)
  String.ofList (mark :: numbers.flatMap (quotedNumber mark) ++ [mark])

def quotedByte (mark : Char) (b : UInt8) : List Char :=
  if b < 128 then quotedChar mark (Char.ofNat b.toNat) else '\\' :: 'x' :: hex 2 b.toNat

def quotedBytes (bytes : List UInt8) : String :=
  let mark := quotationMark (bytes.map fun b => Char.ofNat b.toNat)
  String.ofList ('b' :: mark :: bytes.flatMap (quotedByte mark) ++ [mark])

end TapeMachine.Text
