import TapeMachine.Assembly.Line
import TapeMachine.Text.Quoted
import TapeMachine.Text.Utf8

-- Listings in the making: the lines so far, and the texts that have a label in them.
namespace TapeMachine.Assembly

def textBytes (text : String) : List UInt8 := Utf8.encode text.toList

-- Letters and digits name themselves; any other text is named by its bytes.
def symbolName (symbol : String) : String :=
  if !symbol.isEmpty && symbol.toList.all Char.isAlphanum then symbol
  else String.ofList ('x' :: (textBytes symbol).flatMap fun b => Text.hex 2 b.toNat)

def dataLabel (name : String) : String := "str_" ++ name

structure Listing where
  symbols : List (String × String)
  emitted : List Line

namespace Listing

def blank : Listing := ⟨[],[]⟩

def lines (listing : Listing) : List Line := listing.emitted.reverse

def emit (lines : List Line) (listing : Listing) : Listing :=
  { listing with emitted := lines.reverse ++ listing.emitted }

theorem lines_emit (lines : List Line) (listing : Listing) :
    (listing.emit lines).lines = listing.lines ++ lines := by
  simp [emit, Listing.lines]

-- A text is declared once; a later name for it counts for nothing, nor does an empty one.
def declare (text : String) (name : Option String) (listing : Listing) : String × Listing :=
  match listing.symbols.lookup text with
  | some known => (known,listing)
  | none =>
    let name := (name.filter (· ≠ "")).getD (symbolName text)
    let line := Line.data (dataLabel name) (textBytes text)
    (name,{ listing with symbols := listing.symbols ++ [(text,name)] }.emit [line])

def declareAll (texts : List (String × Option String)) (listing : Listing) : Listing :=
  texts.foldl (fun listing (text,name) => (listing.declare text name).2) listing

def text (listing : Listing) : String :=
  "\n".intercalate (listing.lines.map Line.text) ++ "\n"

def symbolTable (listing : Listing) : String :=
  let entries := listing.symbols.map fun (text,name) => Text.quoted text ++ ": " ++ Text.quoted name
  "\x7b" ++ ", ".intercalate entries ++ "\x7d"

end Listing

inductive EmissionError where
  | notOneCharacter (symbol : String)
  | undeclared (text : String)
  | longNumber
  deriving DecidableEq, Repr

def writable (lines : List Line) : List Line × Except EmissionError Unit :=
  (lines.takeWhile Line.isWritable,
    if lines.all Line.isWritable then .ok () else .error .longNumber)

def codePoint (symbol : String) : Except EmissionError Nat :=
  match symbol.toList with
  | [c] => .ok c.toNat
  | _ => .error (.notOneCharacter symbol)

def headLabel : String := "head"
def stateLabel : String := "state"
def tapeLabel : String := "tape"
def bufferLabel : String := "print_buf"
def startLabel : String := "_start"
def printerLabel : String := "tape_print"
def paddingLabel : String := ".pad"

def bufferLines (tapeSize bufferSize : Int) : List Line :=
  [.empty,.part ".bss" "writeable",.reserve headLabel 1,.reserve stateLabel 1,
    .reserve tapeLabel tapeSize,.reserve bufferLabel bufferSize,.empty]

def cellLines (place : Nat) : List String → List Line × Except EmissionError Unit
  | [] => ([],.ok ())
  | symbol :: cells =>
    match codePoint symbol with
    | .error cause => ([],.error cause)
    | .ok code =>
      let (later,outcome) := cellLines (place+1) cells
      (.code (.storeByte (.plus tapeLabel place) code) :: later,outcome)

def tapeLines (cells : List String) : List Line × Except EmissionError Unit :=
  let (stores,outcome) := cellLines 0 cells
  (.comment "initial tape" :: stores,outcome)

def standardOutput : Int := 1
def writeCall : Int := 1
def exitCall : Int := 60

def writeLines (remark : String) : List Line :=
  [.remarked (.set .rdi standardOutput) "stdout",
    .remarked (.set .rax writeCall) ("write syscall  " ++ remark),.code .syscall]

def printLines (text : String) (listing : Listing) : Except EmissionError (List Line) :=
  match listing.symbols.lookup text with
  | none => .error (.undeclared text)
  | some name =>
    .ok ([.code (.set .rdx (textBytes text).length),.code (.point .rsi (dataLabel name))] ++
      writeLines (dataLabel name))

def printAddressLines (label : String) (length : Option Int) : List Line :=
  (length.map fun n => Line.code (.set .rdx n)).toList ++
    .code (.point .rsi label) :: writeLines label

def exitLines (status : Int) : List Line :=
  [.comment "exit",.code (.set .rax exitCall),.code (.set .rdi status),.code .syscall]

def codeOf (c : Char) : Int := c.toNat

def printedCellLines (place : Nat) : List Line :=
  let offset := 2*place+2
  [.code (.loadLow (.plus tapeLabel place)),.code (.storeLow (.plus bufferLabel offset)),
    .code (.storeByte (.plus bufferLabel (offset+1 : Nat)) (codeOf ' '))]

def printerLines (length : Int) : List Line :=
  let closing := 2*length+2
  [.empty,.mark printerLabel,.code (.push .rax),.code (.push .rcx),
    .code (.storeByte (.at bufferLabel) (codeOf '[')),
    .code (.storeByte (.plus bufferLabel 1) (codeOf ' '))] ++
  (List.range length.toNat).flatMap printedCellLines ++
  [.code (.storeByte (.plus bufferLabel closing) (codeOf ']')),
    .code (.storeByte (.plus bufferLabel (closing+1)) (codeOf '\n')),
    .code (.loadByte .rcx (.at headLabel)),.code (.scale .rcx 2 2),
    .code (.set .rdx (closing+2)),.mark paddingLabel,
    .code (.storeByte (.indexed bufferLabel .rdx) (codeOf ' ')),.code (.increment .rdx),
    .code (.loop paddingLabel),.code (.storeByte (.indexed bufferLabel .rdx) (codeOf '^')),
    .code (.increment .rdx),.code (.storeByte (.indexed bufferLabel .rdx) (codeOf '\n')),
    .code (.increment .rdx),.code (.pop .rcx),.code (.pop .rax),.code .ret]

end TapeMachine.Assembly
