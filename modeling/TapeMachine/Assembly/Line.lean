import TapeMachine.Text.Digit

-- The lines that assembly listings are made of.
namespace TapeMachine.Assembly

inductive Register where
  | al | rax | rcx | rdx | rdi | rsi
  deriving DecidableEq, Repr

def Register.name : Register → String
  | al => "al"
  | rax => "rax"
  | rcx => "rcx"
  | rdx => "rdx"
  | rdi => "rdi"
  | rsi => "rsi"

inductive Address where
  | at (label : String)
  | plus (label : String) (distance : Int)
  | indexed (label : String) (register : Register)
  deriving DecidableEq, Repr

def Address.text : Address → String
  | .at label => s!"[{label}]"
  | plus label distance => s!"[{label}+{distance}]"
  | indexed label register =>
    let name := register.name
    s!"[{label}+{name}]"

def Address.numbers : Address → List Int
  | .at _ => []
  | plus _ distance => [distance]
  | indexed _ _ => []

inductive Instruction where
  | storeByte (address : Address) (value : Int)
  | storeLow (address : Address)
  | loadLow (address : Address)
  | loadByte (register : Register) (address : Address)
  | set (register : Register) (value : Int)
  | point (register : Register) (label : String)
  | scale (register : Register) (factor summand : Nat)
  | increment (register : Register)
  | loop (label : String)
  | push (register : Register)
  | pop (register : Register)
  | call (label : String)
  | ret
  | syscall
  deriving DecidableEq, Repr

def Instruction.text : Instruction → String
  | storeByte address value => s!"mov byte {address.text}, {value}"
  | storeLow address => s!"mov byte {address.text}, {Register.al.name}"
  | loadLow address => s!"mov {Register.al.name}, byte {address.text}"
  | loadByte register address => s!"movzx {register.name}, byte {address.text}"
  | set register value => s!"mov {register.name}, {value}"
  | point register label => s!"mov {register.name}, {label}"
  | scale register factor summand =>
    s!"lea {register.name}, [{register.name}*{factor}+{summand}]"
  | increment register => s!"inc {register.name}"
  | loop label => s!"loop {label}"
  | push register => s!"push {register.name}"
  | pop register => s!"pop {register.name}"
  | call label => s!"call {label}"
  | ret => "ret"
  | syscall => "syscall"

def Instruction.numbers : Instruction → List Int
  | storeByte address value => value :: address.numbers
  | storeLow address => address.numbers
  | loadLow address => address.numbers
  | loadByte _ address => address.numbers
  | set _ value => [value]
  | _ => []

inductive Line where
  | verbatim (text : String)
  | elf
  | empty
  | part (name access : String)
  | data (label : String) (bytes : List UInt8)
  | reserve (label : String) (size : Int)
  | exported (label : String)
  | mark (label : String)
  | comment (text : String)
  | code (instruction : Instruction)
  | remarked (instruction : Instruction) (remark : String)
  deriving DecidableEq, Repr

def indented (text : String) : String := "    " ++ text

namespace Line

-- Reserved labels and their colon are padded so that the sizes stand below each other.
def reservedWidth : Nat := 11

def text : Line → String
  | verbatim line => line
  | elf => "format ELF64"
  | empty => ""
  | part name access => s!"section '{name}' {access}"
  | data label bytes =>
    let numbers := ", ".intercalate (bytes.map fun b => toString b.toNat)
    indented s!"{label}: db {numbers}"
  | reserve label size =>
    let padding := "".pushn ' ' (reservedWidth - label.length - 1)
    indented s!"{label}:{padding}rb {size}"
  | exported label => s!"public {label}"
  | mark label => s!"{label}:"
  | comment remark => indented s!"; {remark}"
  | code instruction => indented instruction.text
  | remarked instruction remark =>
    let bare := instruction.text
    indented s!"{bare}\t\t; {remark}"

def numbers : Line → List Int
  | reserve _ size => [size]
  | code instruction => instruction.numbers
  | remarked instruction _ => instruction.numbers
  | _ => []

def isWritable (line : Line) : Bool := line.numbers.all Text.isWritable

end Line

end TapeMachine.Assembly
