-- The decimal digits of all scripts, and the whole numbers people write with them.
namespace TapeMachine.Text

def digitZeros : List Nat :=
  [0x30, 0x660, 0x6f0, 0x7c0, 0x966, 0x9e6, 0xa66, 0xae6, 0xb66, 0xbe6, 0xc66, 0xce6, 0xd66,
    0xde6, 0xe50, 0xed0, 0xf20, 0x1040, 0x1090, 0x17e0, 0x1810, 0x1946, 0x19d0, 0x1a80, 0x1a90,
    0x1b50, 0x1bb0, 0x1c40, 0x1c50, 0xa620, 0xa8d0, 0xa900, 0xa9d0, 0xa9f0, 0xaa50, 0xabf0,
    0xff10, 0x104a0, 0x10d30, 0x11066, 0x110f0, 0x11136, 0x111d0, 0x112f0, 0x11450, 0x114d0,
    0x11650, 0x116c0, 0x11730, 0x118e0, 0x11950, 0x11c50, 0x11d50, 0x11da0, 0x16a60, 0x16ac0,
    0x16b50, 0x1d7ce, 0x1d7d8, 0x1d7e2, 0x1d7ec, 0x1d7f6, 0x1e140, 0x1e2f0, 0x1e950, 0x1fbf0]

def digit? (c : Char) : Option Nat :=
  (digitZeros.find? fun start => start ≤ c.toNat && c.toNat < start+10).map (c.toNat - ·)

-- Blanks that may surround a number. Outside ASCII these are all of Unicode's spaces; in
-- ASCII the four information separators are not among them.
def isBlank (c : Char) : Bool :=
  c ∈ [' ', '\t', '\n', '\x0b', '\x0c', '\r', '\u0085', '\u00a0', '\u1680', '\u2028', '\u2029',
    '\u202f', '\u205f', '\u3000'] || 0x2000 ≤ c.toNat && c.toNat ≤ 0x200a

def trimBlanks (text : List Char) : List Char :=
  ((text.dropWhile isBlank).reverse.dropWhile isBlank).reverse

def digitsFrom : Bool → List Char → Option (List Nat)
  | afterDigit,[] => if afterDigit then some [] else none
  | afterDigit,c :: rest =>
    if c = '_' then if afterDigit then digitsFrom false rest else none
    else do return (← digit? c) :: (← digitsFrom true rest)

def valueOf (base : Nat) (digits : List Nat) : Nat :=
  digits.foldl (fun value digit => base*value + digit) 0

-- Longer numerals are refused, so that a short line cannot ask for endless work.
def longestNumeral : Nat := 4300

def natural? (text : List Char) : Option Nat := do
  let digits ← digitsFrom false text
  if longestNumeral < digits.length then none else return valueOf 10 digits

def beyondLimit (size : String) : String :=
  s!"Exceeds the limit ({longestNumeral} digits) for integer string conversion{size}; " ++
    "use sys.set_int_max_str_digits() to increase the limit"

def isWritable (n : Int) : Bool := n.natAbs < Nat.pow 10 longestNumeral

def integer? (text : String) : Option Int :=
  match trimBlanks text.toList with
  | '-' :: rest => (natural? rest).map fun n => -(n : Int)
  | '+' :: rest => (natural? rest).map Int.ofNat
  | rest => (natural? rest).map Int.ofNat

end TapeMachine.Text
