import TapeMachine.Assembly.Listing
import TapeMachine.Proofs.Numerals
import TapeMachine.Text.Parts

-- Listings read as texts. Characters come to words, numbers and marks, and these to lines;
-- nothing of how lines are written is taken for granted. Legible lines are read back.
namespace TapeMachine.Assembly

inductive Piece where
  | word (name : List Char)
  | number (n : Nat)
  | mark (c : Char)
  deriving DecidableEq, Repr

def isWordChar (c : Char) : Bool := c.isAlphanum || c = '_' || c = '.'

def Piece.of (word : List Char) : Piece :=
  if word.all Char.isDigit then .number (Nat.ofDigitChars 10 word 0) else .word word

-- The word that a place is in, the pieces in front of it and the remark, if it is in one. All
-- are kept with the last ones first.
structure Scan where
  word : List Char
  pieces : List Piece
  remark : Option (List Char)
  deriving DecidableEq, Repr

namespace Scan

def closed (scan : Scan) : List Piece :=
  if scan.word = [] then scan.pieces else .of scan.word.reverse :: scan.pieces

def step (scan : Scan) (c : Char) : Scan :=
  match scan.remark with
  | some remark => { scan with remark := some (c :: remark) }
  | none =>
    if isWordChar c then { scan with word := c :: scan.word }
    else if c = ';' then ⟨[],scan.closed,some []⟩
    else if c = ' ' ∨ c = '\t' then ⟨[],scan.closed,none⟩
    else ⟨[],.mark c :: scan.closed,none⟩

end Scan

def register? (name : List Char) : Option Register :=
  [("al".toList,.al),("rax".toList,.rax),("rcx".toList,.rcx),("rdx".toList,.rdx),("rdi".toList,.rdi),
    ("rsi".toList,.rsi)].lookup name

def address? : List Piece → Option (Address × List Piece)
  | .mark '[' :: .word label :: .mark ']' :: rest => some (.at (String.ofList label),rest)
  | .mark '[' :: .word label :: .mark '+' :: .number n :: .mark ']' :: rest =>
    some (.plus (String.ofList label) n,rest)
  | .mark '[' :: .word label :: .mark '+' :: .word name :: .mark ']' :: rest =>
    (register? name).map fun register => (.indexed (String.ofList label) register,rest)
  | _ => none

def byteAddress? : List Piece → Option Address
  | .word size :: operand =>
    match address? operand with
    | some (address,[]) => if size = "byte".toList then some address else none
    | _ => none
  | _ => none

def move? : List Piece → Option Instruction
  | [.word target,.mark ',',.number n] => (register? target).map (.set · n)
  | [.word target,.mark ',',.word label] => (register? target).map (.point · (String.ofList label))
  | .word target :: .mark ',' :: source =>
    if target = "al".toList then (byteAddress? source).map .loadLow else none
  | .word size :: operand =>
    if size = "byte".toList then
      match address? operand with
      | some (address,[.mark ',',.number n]) => some (.storeByte address n)
      | some (address,[.mark ',',.word source]) =>
        if source = "al".toList then some (.storeLow address) else none
      | _ => none
    else none
  | _ => none

def instruction? : List Piece → Option Instruction
  | [.word name] =>
    if name = "ret".toList then some .ret
    else if name = "syscall".toList then some .syscall
    else none
  | [.word name,.word operand] =>
    if name = "inc".toList then (register? operand).map .increment
    else if name = "push".toList then (register? operand).map .push
    else if name = "pop".toList then (register? operand).map .pop
    else if name = "loop".toList then some (.loop (String.ofList operand))
    else if name = "call".toList then some (.call (String.ofList operand))
    else none
  | [.word name,.word target,.mark ',',.mark '[',.word source,.mark '*',.number factor,.mark '+',
      .number summand,.mark ']'] =>
    if name = "lea".toList ∧ source = target then (register? target).map (.scale · factor summand)
    else none
  | .word name :: operands =>
    if name = "mov".toList then move? operands
    else if name = "movzx".toList then
      match operands with
      | .word target :: .mark ',' :: source => do
        return .loadByte (← register? target) (← byteAddress? source)
      | _ => none
    else none
  | _ => none

def bytes? : List Piece → Option (List UInt8)
  | [.number n] => if n < 256 then some [UInt8.ofNat n] else none
  | .number n :: .mark ',' :: rest =>
    if n < 256 then (bytes? rest).map (UInt8.ofNat n :: ·) else none
  | _ => none

def plain? : List Piece → Option Line
  | [] => some .empty
  | [.word label,.mark ':'] => some (.mark (String.ofList label))
  | .word label :: .mark ':' :: .word directive :: operands =>
    if directive = "db".toList then (bytes? operands).map (.data (String.ofList label))
    else if directive = "rb".toList then
      match operands with
      | [.number size] => some (.reserve (String.ofList label) size)
      | _ => none
    else none
  | [.word directive,.mark '\x27',.word name,.mark '\x27',.word access] =>
    if directive = "section".toList then some (.part (String.ofList name) (String.ofList access))
    else none
  | [.word directive,.word operand] =>
    if directive = "format".toList then if operand = "ELF64".toList then some .elf else none
    else if directive = "public".toList then some (.exported (String.ofList operand))
    else (instruction? [.word directive,.word operand]).map .code
  | pieces => (instruction? pieces).map .code

def line? (text : List Char) : Option Line :=
  let scan := text.foldl Scan.step ⟨[],[],none⟩
  match scan.closed.reverse,scan.remark.map List.reverse with
  | pieces,none => plain? pieces
  | [],some (' ' :: remark) => some (.comment (String.ofList remark))
  | pieces,some (' ' :: remark) => (instruction? pieces).map (.remarked · (String.ofList remark))
  | _,some _ => none

def endedLines : List Char → List (List Char)
  | [] => []
  | c :: rest =>
    if c = '\n' then [] :: endedLines rest
    else match endedLines rest with
    | line :: lines => (c :: line) :: lines
    | [] => [[c]]

def read? (text : String) : Option (List Line) := (endedLines text.toList).mapM line?

def isName (label : String) : Bool := label.toList.all isWordChar && !label.toList.all Char.isDigit

def Address.isLegible : Address → Bool
  | .at label => isName label
  | plus label distance => isName label && decide (0 ≤ distance)
  | indexed label _ => isName label

def Instruction.isLegible : Instruction → Bool
  | storeByte address value => address.isLegible && decide (0 ≤ value)
  | storeLow address => address.isLegible
  | loadLow address => address.isLegible
  | loadByte _ address => address.isLegible
  | set _ value => decide (0 ≤ value)
  | point _ label => isName label
  | loop label => isName label
  | call label => isName label
  | _ => true

def Line.isLegible : Line → Bool
  | verbatim _ => false
  | part name access => isName name && isName access
  | data label bytes => isName label && !bytes.isEmpty
  | reserve label size => isName label && decide (0 ≤ size)
  | exported label => isName label
  | mark label => isName label
  | code instruction => instruction.isLegible
  | remarked instruction _ => instruction.isLegible
  | _ => true

def Passes (text : List Char) (pieces : List Piece) : Prop := ∀ before more,
  (text ++ more).foldl Scan.step ⟨[],before,none⟩ =
    more.foldl Scan.step ⟨[],pieces.reverse ++ before,none⟩

-- A text that comes to pieces where no word goes on behind it.
def Spells (text : List Char) (pieces : List Piece) : Prop := ∀ before c more, isWordChar c = false →
  (text ++ c :: more).foldl Scan.step ⟨[],before,none⟩ =
    (c :: more).foldl Scan.step ⟨[],pieces.reverse ++ before,none⟩

def isParted : List Char → Bool
  | [] => false
  | c :: _ => !isWordChar c

section

variable {text others : List Char} {pieces more : List Piece}

theorem Passes.append (first : Passes text pieces) (second : Passes others more) :
    Passes (text ++ others) (pieces ++ more) := by
  intro before rest
  rw [List.append_assoc,first,second,List.reverse_append,List.append_assoc]

theorem Passes.ends (passes : Passes text pieces) : Spells text pieces :=
  fun before c rest _ => passes before (c :: rest)

theorem Passes.spells (first : Passes text pieces) (second : Spells others more) :
    Spells (text ++ others) (pieces ++ more) := by
  intro before c rest apart
  rw [List.append_assoc,first,second _ _ _ apart,List.reverse_append,List.append_assoc]

theorem Spells.passes (first : Spells text pieces) (second : Passes others more)
    (parted : isParted others = true) : Passes (text ++ others) (pieces ++ more) := by
  intro before rest
  cases others with
  | nil => cases parted
  | cons c others =>
    have apart : isWordChar c = false := by simpa [isParted] using parted
    rw [List.append_assoc,List.cons_append,first _ _ _ apart,← List.cons_append,second,
      List.reverse_append,List.append_assoc]

theorem Spells.append (first : Spells text pieces) (second : Spells others more)
    (parted : isParted others = true) : Spells (text ++ others) (pieces ++ more) := by
  intro before d rest apart'
  cases others with
  | nil => cases parted
  | cons c others =>
    have apart : isWordChar c = false := by simpa [isParted] using parted
    rw [List.append_assoc,List.cons_append,first _ _ _ apart,← List.cons_append,second _ _ _ apart',
      List.reverse_append,List.append_assoc]

theorem foldl_word (solid : text.all isWordChar = true) (word : List Char) (before : List Piece) :
    text.foldl Scan.step ⟨word,before,none⟩ = ⟨text.reverse ++ word,before,none⟩ := by
  induction text generalizing word with
  | nil => rfl
  | cons c text ih =>
    rw [List.all_cons,Bool.and_eq_true] at solid
    have first : Scan.step ⟨word,before,none⟩ c = ⟨c :: word,before,none⟩ := if_pos solid.1
    rw [List.foldl_cons,first,ih solid.2,List.reverse_cons,List.append_assoc]
    rfl

theorem Spells.word (solid : text.all isWordChar = true) (some : text ≠ []) :
    Spells text [.of text] := by
  intro before c more apart
  have closed : Scan.step ⟨text.reverse,before,none⟩ c = Scan.step ⟨[],.of text :: before,none⟩ c := by
    simp [Scan.step,Scan.closed,apart,some]
  rw [List.foldl_append,foldl_word solid,List.append_nil,List.foldl_cons,closed]
  rfl

end

theorem spells_name {label : String} (named : isName label = true) :
    Spells label.toList [.word label.toList] := by
  simp only [isName,Bool.and_eq_true,Bool.not_eq_true'] at named
  obtain ⟨solid,other⟩ := named
  have some : label.toList ≠ [] := by
    intro none
    rw [none] at other
    cases other
  have word := Spells.word solid some
  rwa [Piece.of,other,if_neg Bool.false_ne_true] at word

theorem spells_number (n : Nat) : Spells (toString (n : Int)).toList [.number n] := by
  have digits : (Nat.toDigits 10 n).all Char.isDigit = true :=
    List.all_eq_true.mpr fun _ => Text.isDigit_of_mem
  have solid : (Nat.toDigits 10 n).all isWordChar = true := by
    rw [List.all_eq_true]
    intro c member
    simp [isWordChar,Char.isAlphanum,Text.isDigit_of_mem member]
  have word := Spells.word solid Nat.toDigits_ne_nil
  rwa [Piece.of,digits,if_pos rfl,Nat.ofDigitChars_ten_toDigits,← Text.toList_natural] at word

theorem spells_register (register : Register) :
    Spells register.name.toList [.word register.name.toList] := by
  cases register <;> exact Spells.word rfl (by decide)

theorem register?_name (register : Register) : register? register.name.toList = some register := by
  cases register <;> rfl

theorem toString_text (text : String) : toString text = text := rfl

theorem passes_comma : Passes ", ".toList [.mark ','] := fun _ _ => rfl

theorem passes_plus : Passes "+".toList [.mark '+'] := fun _ _ => rfl

theorem passes_closing : Passes "]".toList [.mark ']'] := fun _ _ => rfl

namespace Address

def pieces : Address → List Piece
  | .at label => [.mark '[',.word label.toList,.mark ']']
  | plus label distance =>
    [.mark '[',.word label.toList,.mark '+',.number distance.toNat,.mark ']']
  | indexed label register =>
    [.mark '[',.word label.toList,.mark '+',.word register.name.toList,.mark ']']

variable {address : Address}

theorem passes (legible : address.isLegible = true) : Passes address.text.toList address.pieces := by
  have opens : Passes "[".toList [.mark '['] := fun _ _ => rfl
  cases address with
  | «at» label =>
    have whole := opens.append ((spells_name legible).passes passes_closing rfl)
    simp only [text,toString_text,String.toList_append,List.append_assoc]
    exact whole
  | plus label distance =>
    simp only [isLegible,Bool.and_eq_true,decide_eq_true_eq] at legible
    obtain ⟨named,positive⟩ := legible
    obtain ⟨n,rfl⟩ := Int.eq_ofNat_of_zero_le positive
    have inside := passes_plus.append ((spells_number n).passes passes_closing rfl)
    have whole := opens.append ((spells_name named).passes inside rfl)
    simp only [text,toString_text,String.toList_append,List.append_assoc]
    exact whole
  | indexed label register =>
    have inside := passes_plus.append ((spells_register register).passes passes_closing rfl)
    have whole := opens.append ((spells_name legible).passes inside rfl)
    simp only [text,toString_text,String.toList_append,List.append_assoc]
    exact whole

theorem pieces_eq_cons (address : Address) : ∃ rest, address.pieces = .mark '[' :: rest := by
  cases address <;> exact ⟨_,rfl⟩

theorem address?_pieces (legible : address.isLegible = true) (rest : List Piece) :
    address? (address.pieces ++ rest) = some (address,rest) := by
  cases address with
  | «at» label => simp [pieces,address?]
  | plus label distance =>
    simp only [isLegible,Bool.and_eq_true,decide_eq_true_eq] at legible
    simp [pieces,address?,Int.toNat_of_nonneg legible.2]
  | indexed label register => simp [pieces,address?,register?_name]

end Address

namespace Instruction

def pieces : Instruction → List Piece
  | storeByte address value => .word "mov".toList :: .word "byte".toList ::
    (address.pieces ++ [.mark ',',.number value.toNat])
  | storeLow address => .word "mov".toList :: .word "byte".toList ::
    (address.pieces ++ [.mark ',',.word "al".toList])
  | loadLow address => .word "mov".toList :: .word "al".toList :: .mark ',' :: .word "byte".toList ::
    address.pieces
  | loadByte register address => .word "movzx".toList :: .word register.name.toList :: .mark ',' ::
    .word "byte".toList :: address.pieces
  | set register value =>
    [.word "mov".toList,.word register.name.toList,.mark ',',.number value.toNat]
  | point register label =>
    [.word "mov".toList,.word register.name.toList,.mark ',',.word label.toList]
  | scale register factor summand =>
    [.word "lea".toList,.word register.name.toList,.mark ',',.mark '[',.word register.name.toList,
      .mark '*',.number factor,.mark '+',.number summand,.mark ']']
  | increment register => [.word "inc".toList,.word register.name.toList]
  | loop label => [.word "loop".toList,.word label.toList]
  | push register => [.word "push".toList,.word register.name.toList]
  | pop register => [.word "pop".toList,.word register.name.toList]
  | call label => [.word "call".toList,.word label.toList]
  | ret => [.word "ret".toList]
  | syscall => [.word "syscall".toList]

variable {instruction : Instruction}

theorem spells (legible : instruction.isLegible = true) :
    Spells instruction.text.toList instruction.pieces := by
  have moves : Passes "mov ".toList [.word "mov".toList] := fun _ _ => rfl
  have movesByte : Passes "mov byte ".toList [.word "mov".toList,.word "byte".toList] := fun _ _ => rfl
  have behind : Passes ", byte ".toList [.mark ',',.word "byte".toList] := fun _ _ => rfl
  cases instruction
  all_goals simp only [text,toString_text,String.toList_append,List.append_assoc]
  case storeByte address value =>
    simp only [isLegible,Bool.and_eq_true,decide_eq_true_eq] at legible
    obtain ⟨n,rfl⟩ := Int.eq_ofNat_of_zero_le legible.2
    exact movesByte.spells ((address.passes legible.1).spells (passes_comma.spells (spells_number n)))
  case storeLow address =>
    exact movesByte.spells ((address.passes legible).spells (passes_comma.spells (spells_register .al)))
  case loadLow address =>
    exact moves.spells ((spells_register .al).append (behind.append (address.passes legible)).ends rfl)
  case loadByte register address =>
    have front : Passes "movzx ".toList [.word "movzx".toList] := fun _ _ => rfl
    exact front.spells ((spells_register register).append (behind.append (address.passes legible)).ends rfl)
  case set register value =>
    simp only [isLegible,decide_eq_true_eq] at legible
    obtain ⟨n,rfl⟩ := Int.eq_ofNat_of_zero_le legible
    exact moves.spells ((spells_register register).append (passes_comma.spells (spells_number n)) rfl)
  case point register label =>
    exact moves.spells ((spells_register register).append (passes_comma.spells (spells_name legible)) rfl)
  case scale register factor summand =>
    have front : Passes "lea ".toList [.word "lea".toList] := fun _ _ => rfl
    have opens : Passes ", [".toList [.mark ',',.mark '['] := fun _ _ => rfl
    have times : Passes "*".toList [.mark '*'] := fun _ _ => rfl
    have sum := times.append ((spells_number factor).passes
      (passes_plus.append ((spells_number summand).passes passes_closing rfl)) rfl)
    have inside := opens.append ((spells_register register).passes sum rfl)
    exact front.spells ((spells_register register).append inside.ends rfl)
  case increment register =>
    have increments : Passes "inc ".toList [.word "inc".toList] := fun _ _ => rfl
    exact increments.spells (spells_register register)
  case push register =>
    have pushes : Passes "push ".toList [.word "push".toList] := fun _ _ => rfl
    exact pushes.spells (spells_register register)
  case pop register =>
    have pops : Passes "pop ".toList [.word "pop".toList] := fun _ _ => rfl
    exact pops.spells (spells_register register)
  case loop label =>
    have loops : Passes "loop ".toList [.word "loop".toList] := fun _ _ => rfl
    exact loops.spells (spells_name legible)
  case call label =>
    have calls : Passes "call ".toList [.word "call".toList] := fun _ _ => rfl
    exact calls.spells (spells_name legible)
  case ret => exact Spells.word rfl (by decide)
  case syscall => exact Spells.word rfl (by decide)

theorem byteAddress?_pieces {address : Address} (legible : address.isLegible = true) :
    byteAddress? (.word "byte".toList :: address.pieces) = some address := by
  have read := address.address?_pieces legible []
  rw [List.append_nil] at read
  simp [byteAddress?,read]

theorem pieces_eq_cons (instruction : Instruction) :
    ∃ first others, instruction.pieces = first :: others := by
  cases instruction <;> exact ⟨_,_,rfl⟩

theorem plain?_pieces (instruction : Instruction) :
    plain? instruction.pieces = (instruction? instruction.pieces).map .code := by
  cases instruction with
  | storeByte address _ | storeLow address =>
    obtain ⟨rest,opens⟩ := address.pieces_eq_cons
    simp [pieces,plain?,opens]
  | _ => simp [pieces,plain?]

theorem instruction?_pieces (legible : instruction.isLegible = true) :
    instruction? instruction.pieces = some instruction := by
  cases instruction with
  | storeByte address value =>
    simp only [isLegible,Bool.and_eq_true,decide_eq_true_eq] at legible
    obtain ⟨n,rfl⟩ := Int.eq_ofNat_of_zero_le legible.2
    have read := address.address?_pieces legible.1 [.mark ',',.number n]
    obtain ⟨rest,opens⟩ := address.pieces_eq_cons
    rw [opens] at read
    simp_all [pieces,instruction?,move?]
  | storeLow address =>
    have read := address.address?_pieces legible [.mark ',',.word "al".toList]
    obtain ⟨rest,opens⟩ := address.pieces_eq_cons
    rw [opens] at read
    simp_all [pieces,instruction?,move?]
  | loadLow address =>
    have read := byteAddress?_pieces legible
    obtain ⟨rest,opens⟩ := address.pieces_eq_cons
    rw [opens] at read
    simp_all [pieces,instruction?,move?]
  | loadByte register address =>
    have read := byteAddress?_pieces legible
    obtain ⟨rest,opens⟩ := address.pieces_eq_cons
    rw [opens] at read
    simp_all [pieces,instruction?,register?_name]
  | set register value =>
    simp only [isLegible,decide_eq_true_eq] at legible
    obtain ⟨n,rfl⟩ := Int.eq_ofNat_of_zero_le legible
    simp [pieces,instruction?,move?,register?_name]
  | point register label => simp [pieces,instruction?,move?,register?_name]
  | scale register factor summand => simp [pieces,instruction?,register?_name]
  | increment register | push register | pop register => simp [pieces,instruction?,register?_name]
  | loop label | call label => simp [pieces,instruction?]
  | ret | syscall => rfl

end Instruction

section

variable {text : List Char} {pieces : List Piece}

theorem Spells.closed (spells : Spells text pieces) :
    (text.foldl Scan.step ⟨[],[],none⟩).closed.reverse = pieces ∧
      (text.foldl Scan.step ⟨[],[],none⟩).remark = none := by
  have behind := spells [] ' ' [] rfl
  rw [List.foldl_append,List.append_nil] at behind
  generalize text.foldl Scan.step ⟨[],[],none⟩ = scan at behind ⊢
  obtain ⟨word,before,remark⟩ := scan
  cases remark with
  | some remark => cases behind
  | none =>
    have closed : Scan.closed ⟨word,before,none⟩ = pieces.reverse := congrArg Scan.pieces behind
    rw [closed,List.reverse_reverse]
    exact ⟨rfl,rfl⟩

theorem line?_of_spells (spells : Spells text pieces) : line? text = plain? pieces := by
  obtain ⟨closed,unremarked⟩ := spells.closed
  simp only [line?,closed,unremarked,Option.map_none]

theorem foldl_remark (remark : List Char) (word : List Char) (before : List Piece) :
    text.foldl Scan.step ⟨word,before,some remark⟩ = ⟨word,before,some (text.reverse ++ remark)⟩ := by
  induction text generalizing remark with
  | nil => rfl
  | cons c text ih =>
    rw [List.foldl_cons,List.reverse_cons,List.append_assoc]
    exact ih (c :: remark)

theorem Passes.scanned (passes : Passes text pieces) (remark : List Char) :
    (text ++ ';' :: ' ' :: remark).foldl Scan.step ⟨[],[],none⟩ =
      ⟨[],pieces.reverse,some (remark.reverse ++ [' '])⟩ := by
  have opens : Scan.step (Scan.step ⟨[],pieces.reverse,none⟩ ';') ' ' =
      ⟨[],pieces.reverse,some [' ']⟩ := rfl
  rw [passes,List.append_nil,List.foldl_cons,List.foldl_cons,opens,foldl_remark]

end

def bytePieces : List UInt8 → List Piece
  | [] => []
  | [b] => [.number b.toNat]
  | b :: rest => .number b.toNat :: .mark ',' :: bytePieces rest

theorem spells_bytes {bytes : List UInt8} (any : bytes ≠ []) :
    Spells (", ".intercalate (bytes.map fun b => toString b.toNat)).toList (bytePieces bytes) := by
  induction bytes with
  | nil => exact absurd rfl any
  | cons b bytes ih =>
    cases bytes with
    | nil =>
      rw [List.map_singleton,String.intercalate_singleton]
      exact spells_number b.toNat
    | cons next bytes =>
      have later := passes_comma.spells (ih (List.cons_ne_nil _ _))
      rw [List.map_cons] at later
      rw [List.map_cons,List.map_cons,String.intercalate_cons_cons,String.toList_append,
        String.toList_append,List.append_assoc]
      exact (spells_number b.toNat).append later rfl

theorem bytes?_pieces {bytes : List UInt8} (any : bytes ≠ []) : bytes? (bytePieces bytes) = some bytes := by
  induction bytes with
  | nil => exact absurd rfl any
  | cons b bytes ih =>
    cases bytes with
    | nil => simp [bytePieces,bytes?,b.toNat_lt]
    | cons next bytes => simp [bytePieces,bytes?,b.toNat_lt,ih]

theorem passes_blanks (count : Nat) : Passes ("".pushn ' ' count).toList [] := by
  rw [Text.toList_pushn]
  induction count with
  | zero => exact fun _ _ => rfl
  | succ count ih =>
    have blank : Passes [' '] [] := fun _ _ => rfl
    exact blank.append ih

namespace Line

theorem line?_text {line : Line} (legible : line.isLegible = true) :
    line? line.text.toList = some line := by
  have indents : Passes "    ".toList [] := fun _ _ => rfl
  cases line
  all_goals simp only [text,indented,toString_text,String.toList_append,List.append_assoc]
  case verbatim => cases legible
  case elf => rfl
  case empty => rfl
  case part name access =>
    simp only [isLegible,Bool.and_eq_true] at legible
    have opens : Passes "section '".toList [.word "section".toList,.mark '\x27'] := fun _ _ => rfl
    have closes : Passes "' ".toList [.mark '\x27'] := fun _ _ => rfl
    rw [line?_of_spells (opens.spells ((spells_name legible.1).append
      (closes.spells (spells_name legible.2)) rfl))]
    simp [plain?]
  case data label bytes =>
    simp only [isLegible,Bool.and_eq_true,Bool.not_eq_true',List.isEmpty_eq_false_iff] at legible
    have directs : Passes ": db ".toList [.mark ':',.word "db".toList] := fun _ _ => rfl
    rw [line?_of_spells (indents.spells ((spells_name legible.1).append
      (directs.spells (spells_bytes legible.2)) rfl))]
    simp [plain?,bytes?_pieces legible.2]
  case reserve label size =>
    simp only [isLegible,Bool.and_eq_true,decide_eq_true_eq] at legible
    obtain ⟨n,rfl⟩ := Int.eq_ofNat_of_zero_le legible.2
    have colon : Passes ":".toList [.mark ':'] := fun _ _ => rfl
    have directs : Passes "rb ".toList [.word "rb".toList] := fun _ _ => rfl
    rw [line?_of_spells (indents.spells ((spells_name legible.1).append
      (colon.spells ((passes_blanks _).spells (directs.spells (spells_number n)))) rfl))]
    simp [plain?]
  case exported label =>
    have exports : Passes "public ".toList [.word "public".toList] := fun _ _ => rfl
    rw [line?_of_spells (exports.spells (spells_name legible))]
    simp [plain?]
  case mark label =>
    have colon : Passes ":".toList [.mark ':'] := fun _ _ => rfl
    rw [line?_of_spells ((spells_name legible).append colon.ends rfl)]
    simp [plain?]
  case comment remark =>
    have scanned := indents.scanned remark.toList
    have mark : "; ".toList = [';',' '] := rfl
    simp only [line?,mark,List.cons_append,List.nil_append,scanned]
    simp [Scan.closed]
  case code instruction =>
    rw [line?_of_spells (indents.spells (Instruction.spells legible)),List.nil_append,
      Instruction.plain?_pieces,Instruction.instruction?_pieces legible]
    rfl
  case remarked instruction remark =>
    have tabs : Passes ['\t','\t'] [] := fun _ _ => rfl
    have scanned := (indents.append ((Instruction.spells legible).passes tabs rfl)).scanned remark.toList
    have mark : "\t\t; ".toList = ['\t','\t',';',' '] := rfl
    obtain ⟨first,others,some⟩ := instruction.pieces_eq_cons
    simp only [List.append_assoc,List.nil_append,List.append_nil,List.cons_append] at scanned
    simp only [line?,mark,List.cons_append,List.nil_append,scanned]
    have read := Instruction.instruction?_pieces legible
    rw [some] at read
    simp [Scan.closed,some,read]

end Line

theorem endedLines_append {line : List Char} (single : '\n' ∉ line) (rest : List Char) :
    endedLines (line ++ '\n' :: rest) = line :: endedLines rest := by
  induction line with
  | nil => rfl
  | cons c line ih =>
    rw [List.mem_cons,not_or] at single
    have other : c ≠ '\n' := Ne.symm single.1
    rw [List.cons_append,endedLines,if_neg other,ih single.2]

theorem endedLines_flatMap {lines : List (List Char)} (single : ∀ line ∈ lines, '\n' ∉ line) :
    endedLines (lines.flatMap (· ++ ['\n'])) = lines := by
  induction lines with
  | nil => rfl
  | cons line lines ih =>
    rw [List.flatMap_cons,List.append_assoc,List.singleton_append,
      endedLines_append (single line List.mem_cons_self),
      ih fun line member => single line (List.mem_cons_of_mem _ member)]

theorem toList_ended {texts : List String} (any : texts ≠ []) :
    ("\n".intercalate texts ++ "\n").toList = (texts.map String.toList).flatMap (· ++ ['\n']) := by
  have newline : "\n".toList = ['\n'] := rfl
  rw [String.toList_append,newline]
  induction texts with
  | nil => exact absurd rfl any
  | cons text texts ih =>
    cases texts with
    | nil => rw [String.intercalate_singleton,List.map_singleton,List.flatMap_singleton]
    | cons next texts =>
      rw [String.intercalate_cons_cons,String.toList_append,String.toList_append,newline,
        List.append_assoc,ih (List.cons_ne_nil _ _)]
      rfl

theorem mapM_line? {lines : List Line} (legible : ∀ line ∈ lines, line.isLegible = true) :
    (lines.map fun line => line.text.toList).mapM line? = some lines := by
  induction lines with
  | nil => rfl
  | cons line lines ih =>
    rw [List.map_cons,List.mapM_cons,Line.line?_text (legible line List.mem_cons_self),
      ih fun line member => legible line (List.mem_cons_of_mem _ member)]
    rfl

theorem read?_text {listing : Listing} (any : listing.lines ≠ [])
    (single : ∀ line ∈ listing.lines, '\n' ∉ line.text.toList)
    (legible : ∀ line ∈ listing.lines, line.isLegible = true) :
    read? listing.text = some listing.lines := by
  have texts : endedLines listing.text.toList = listing.lines.map fun line => line.text.toList := by
    rw [Listing.text,toList_ended (by simpa using any),endedLines_flatMap (by simpa using single),
      List.map_map]
    rfl
  rw [read?,texts,mapM_line? legible]

end TapeMachine.Assembly
