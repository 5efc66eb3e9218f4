import TapeMachine.Proofs.Acceptance
import TapeMachine.Proofs.Declarations
import TapeMachine.Proofs.LineReading

-- The lines of compiled listings: which labels they define and mention, and that they are written
-- in plain text that reads back to them.
namespace TapeMachine.Assembly

def Line.defined? : Line → Option String
  | data label _ => some label
  | reserve label _ => some label
  | mark label => some label
  | _ => none

def labels (lines : List Line) : List String := lines.filterMap Line.defined?

theorem labels_append (first rest : List Line) :
    labels (first ++ rest) = labels first ++ labels rest := List.filterMap_append

theorem Line.text_of_defined {line : Line} {label : String} (defines : line.defined? = some label) :
    ∃ rest, line.text = label ++ ":" ++ rest ∨ line.text = indented (label ++ ":" ++ rest) := by
  cases line with
  | data _ bytes =>
    cases defines
    have colon : ": db " = ":" ++ " db " := rfl
    refine ⟨" db " ++ ", ".intercalate (bytes.map fun b => toString b.toNat),.inr ?_⟩
    rw [← String.append_assoc,@String.append_assoc label,← colon]
    rfl
  | reserve _ size =>
    cases defines
    refine ⟨"".pushn ' ' (reservedWidth - label.length - 1) ++ ("rb " ++ toString size),.inr ?_⟩
    rw [← String.append_assoc,← String.append_assoc]
    rfl
  | mark _ =>
    cases defines
    exact ⟨"",.inl String.append_empty.symm⟩
  | _ => cases defines

def Address.label : Address → String
  | .at label => label
  | plus label _ => label
  | indexed label _ => label

def Instruction.mentioned : Instruction → List String
  | storeByte address _ => [address.label]
  | storeLow address => [address.label]
  | loadLow address => [address.label]
  | loadByte _ address => [address.label]
  | point _ label => [label]
  | loop label => [label]
  | call label => [label]
  | _ => []

def Line.mentioned : Line → List String
  | exported label => [label]
  | code instruction => instruction.mentioned
  | remarked instruction _ => instruction.mentioned
  | _ => []

def Line.parts : Line → List String
  | verbatim text => [text]
  | part name access => [name,access]
  | data label _ => [label]
  | reserve label _ => [label]
  | exported label => [label]
  | mark label => [label]
  | comment text => [text]
  | code instruction => instruction.mentioned
  | remarked instruction remark => remark :: instruction.mentioned
  | _ => []

def isPlain (text : String) : Bool := text.toList.all fun c => c.toNat < 128 && c ≠ '\n'

@[simp]
theorem isPlain_append (first rest : String) :
    isPlain (first ++ rest) = (isPlain first && isPlain rest) := by
  simp [isPlain]

@[simp]
theorem isPlain_toString (text : String) : isPlain (toString text) = isPlain text := rfl

@[simp]
theorem isPlain_nat (n : Nat) : isPlain n.repr = true := by
  rw [isPlain,Nat.toList_repr,List.all_eq_true]
  intro c member
  have digit := Nat.isDigit_of_mem_toDigits (by decide) (by decide) member
  simp only [Char.isDigit,Bool.and_eq_true,decide_eq_true_eq,UInt32.le_iff_toNat_le] at digit
  have below : c.toNat < 128 := Nat.lt_of_le_of_lt digit.2 (by decide)
  have other : c ≠ '\n' := by
    intro same
    exact absurd digit.1 (by rw [same]; decide)
  simp [below,other]

@[simp]
theorem isPlain_int (n : Int) : isPlain n.repr = true := by
  cases n with
  | ofNat n => exact isPlain_nat n
  | negSucc n =>
    show isPlain ("-" ++ (n+1).repr) = true
    rw [isPlain_append,isPlain_nat]
    rfl

theorem isPlain_intercalate {separator : String} {texts : List String}
    (plain : isPlain separator = true) (all : ∀ text ∈ texts, isPlain text = true) :
    isPlain (separator.intercalate texts) = true := by
  induction texts with
  | nil => rfl
  | cons text texts ih =>
    have first := all text List.mem_cons_self
    have rest := ih fun text member => all text (List.mem_cons_of_mem _ member)
    cases texts with
    | nil => rwa [String.intercalate_singleton]
    | cons next texts =>
      rw [String.intercalate_cons_cons,isPlain_append,isPlain_append,first,plain,rest]
      rfl

@[simp]
theorem isPlain_blanks (count : Nat) : isPlain ("".pushn ' ' count) = true := by
  rw [isPlain,toList_blanks]
  simp

@[simp]
theorem Register.isPlain_name (register : Register) : isPlain register.name = true := by
  cases register <;> rfl

theorem Address.isPlain_text {address : Address} (plain : isPlain address.label = true) :
    isPlain address.text = true := by
  have named (label : String) (same : address.label = label) : isPlain label = true := same ▸ plain
  cases address with
  | «at» label => simp +decide [text,named label rfl]
  | plus label distance => simp +decide [text,named label rfl]
  | indexed label register => simp +decide [text,named label rfl]

theorem Instruction.isPlain_text {instruction : Instruction}
    (plain : ∀ label ∈ instruction.mentioned, isPlain label = true) :
    isPlain instruction.text = true := by
  cases instruction with
  | storeByte address _ | storeLow address | loadLow address | loadByte _ address =>
    have named := Address.isPlain_text (plain address.label (List.mem_singleton_self _))
    simp +decide [text,named]
  | point _ label | loop label | call label =>
    have named := plain label (List.mem_singleton_self _)
    simp +decide [text,named]
  | _ => simp +decide [text]

theorem Line.isPlain_text {line : Line} (plain : ∀ text ∈ line.parts, isPlain text = true) :
    isPlain line.text = true := by
  cases line with
  | data label bytes =>
    have numbers : isPlain (", ".intercalate (bytes.map fun b => toString b.toNat)) = true := by
      refine isPlain_intercalate rfl ?_
      intro text member
      obtain ⟨b,_,rfl⟩ := List.mem_map.mp member
      exact isPlain_nat _
    simp_all +decide [text,parts,indented]
  | code instruction =>
    have bare := instruction.isPlain_text plain
    simp_all +decide [text,parts,indented]
  | remarked instruction remark =>
    have bare := instruction.isPlain_text fun label member => plain label (List.mem_cons_of_mem _ member)
    simp_all +decide [text,parts,indented]
  | _ => simp_all +decide [text,parts,indented]

def fixedLabels : List String :=
  [headLabel,stateLabel,tapeLabel,bufferLabel,startLabel,printerLabel,paddingLabel]

def Line.isOrdinary : Line → Bool
  | data _ _ => false
  | line => line.isLegible && line.parts.all isPlain &&
    line.mentioned.all fun label => label ∈ dataLabel "nl" :: fixedLabels

def ordinary (lines : List Line) : Bool := lines.all Line.isOrdinary

structure Labeled (lines : List Line) (found : List String) : Prop where
  defines : labels lines = found
  usual : ordinary lines = true

theorem Labeled.append {first rest : List Line} {found found' : List String}
    (labeled : Labeled first found) (labeled' : Labeled rest found') :
    Labeled (first ++ rest) (found ++ found') where
  defines := by rw [labels_append,labeled.defines,labeled'.defines]
  usual := by
    have both : ordinary (first ++ rest) = (ordinary first && ordinary rest) := List.all_append
    rw [both,labeled.usual,labeled'.usual]
    rfl

theorem labeled_store {label : String} (known : label ∈ fixedLabels) {distance value : Int}
    (right : 0 ≤ distance) (positive : 0 ≤ value) :
    Labeled [.code (.storeByte (.plus label distance) value)] [] := by
  have plain : ∀ label ∈ fixedLabels, isPlain label = true := by decide
  have named : ∀ label ∈ fixedLabels, isName label = true := by decide
  refine ⟨rfl,?_⟩
  simp [ordinary,Line.isOrdinary,Line.isLegible,Instruction.isLegible,Address.isLegible,Line.parts,
    Line.mentioned,Instruction.mentioned,Address.label,known,plain label known,named label known,right,
    positive]

theorem labeled_cells (cells : List String) (place : Nat) :
    Labeled (cellLines place cells).1 [] := by
  induction cells generalizing place with
  | nil => exact ⟨rfl,rfl⟩
  | cons symbol cells ih =>
    rw [cellLines]
    split
    · exact ⟨rfl,rfl⟩
    · rename_i code _
      have store := labeled_store (by decide : tapeLabel ∈ fixedLabels) (Int.natCast_nonneg place)
        (Int.natCast_nonneg code)
      exact store.append (ih (place+1))

theorem labeled_printedCell (place : Nat) : Labeled (printedCellLines place) [] := by
  have named : isName tapeLabel = true ∧ isName bufferLabel = true := by decide
  refine ⟨rfl,?_⟩
  simp +decide [printedCellLines,ordinary,Line.isOrdinary,Line.isLegible,Instruction.isLegible,
    Address.isLegible,Line.parts,Line.mentioned,Instruction.mentioned,Address.label,named]
  omega

theorem labeled_printedCells (count : Nat) :
    Labeled ((List.range count).flatMap printedCellLines) [] := by
  induction count with
  | zero => exact ⟨rfl,rfl⟩
  | succ count ih =>
    rw [List.range_succ,List.flatMap_append,List.flatMap_singleton]
    exact ih.append (labeled_printedCell count)

theorem labeled_closing (length : Nat) : Labeled (closingLines length) [] := by
  have named : isName headLabel = true ∧ isName bufferLabel = true := by decide
  refine ⟨rfl,?_⟩
  simp +decide [closingLines,ordinary,Line.isOrdinary,Line.isLegible,Instruction.isLegible,
    Address.isLegible,Line.parts,Line.mentioned,Instruction.mentioned,Address.label,named]
  omega

theorem labeled_printer (length : Nat) :
    Labeled (printerLines length) [printerLabel,paddingLabel] := by
  have opening : Labeled (.empty :: .mark printerLabel :: openingLines) [printerLabel] := ⟨rfl,rfl⟩
  have loop : Labeled (.mark paddingLabel :: (paddingLines ++ caretLines)) [paddingLabel] := ⟨rfl,rfl⟩
  rw [printerLines_eq,routineLines]
  exact opening.append ((labeled_printedCells length).append ((labeled_closing length).append loop))

theorem labeled_main (state : UInt8) (cells : List String) :
    Labeled (mainLines state.toNat cells []) [] := by
  have opening : Labeled [.code (.storeByte (.at headLabel) 0),
      .code (.storeByte (.at stateLabel) state.toNat),.comment "initial tape"] [] := by
    refine ⟨rfl,?_⟩
    simp +decide [ordinary,Line.isOrdinary,Line.isLegible,Instruction.isLegible,Address.isLegible,
      Line.parts,Line.mentioned,Instruction.mentioned,Address.label]
  exact opening.append ((labeled_cells cells 0).append ⟨rfl,rfl⟩)

def codeLines (sizes : Sizes) (run : Run) (state : UInt8) : List Line :=
  bufferLines sizes.tape sizes.printBuffer ++
    ([.part ".text" "executable",.exported startLabel,.empty,.mark startLabel] ++
      mainLines state.toNat run.tape (printerLines run.tape.length))

theorem labeled_code {sizes : Sizes} (tape : 0 ≤ sizes.tape) (printBuffer : 0 ≤ sizes.printBuffer)
    (run : Run) (state : UInt8) : Labeled (codeLines sizes run state) fixedLabels := by
  have buffers : Labeled (bufferLines sizes.tape sizes.printBuffer)
      [headLabel,stateLabel,tapeLabel,bufferLabel] := by
    refine ⟨rfl,?_⟩
    simp +decide [bufferLines,ordinary,Line.isOrdinary,Line.isLegible,Line.parts,Line.mentioned,tape,
      printBuffer]
  have start : Labeled [.part ".text" "executable",.exported startLabel,.empty,.mark startLabel]
      [startLabel] := ⟨rfl,rfl⟩
  rw [codeLines,mainLines_eq]
  exact buffers.append (start.append ((labeled_main _ _).append (labeled_printer _)))

structure Line.Ordinary (line : Line) : Prop where
  legible : line.isLegible = true
  apart : ∀ label bytes, line ≠ .data label bytes
  plain : ∀ text ∈ line.parts, isPlain text = true
  known : ∀ label ∈ line.mentioned, label ∈ dataLabel "nl" :: fixedLabels

theorem ordinary_of {line : Line} (usual : line.isOrdinary = true) : line.Ordinary := by
  have legible : line.isLegible = true := by
    cases line <;> simp_all [Line.isOrdinary]
  have parts : ∀ text ∈ line.parts, isPlain text = true := by
    cases line <;> simp_all [Line.isOrdinary,Line.parts]
  have mentioned : ∀ label ∈ line.mentioned, label ∈ dataLabel "nl" :: fixedLabels := by
    cases line <;> simp_all [Line.isOrdinary,Line.mentioned]
  refine ⟨legible,?_,parts,mentioned⟩
  rintro label bytes rfl
  cases usual

theorem Labeled.ordinary {lines : List Line} {found : List String} (labeled : Labeled lines found) :
    ∀ line ∈ lines, line.Ordinary := fun line member =>
  ordinary_of (List.all_eq_true.mp labeled.usual line member)

section

variable {sizes : Sizes} {program : Program} {run : Run}

theorem isPlain_textName {text : String} (declarable : Declarable text) :
    isPlain (textName text) = true := by
  have fixed_plain : ∀ name ∈ fixedNames, isPlain name = true := by decide
  have digit_plain : ∀ n < 16, isPlain (String.singleton (Nat.digitChar n)) = true := by decide
  by_cases fixed : text ∈ fixedTexts.map Prod.fst
  · exact fixed_plain _ (textName_fixed fixed)
  · obtain ⟨c,rfl,small⟩ := narrow_singleton (declarable.resolve_left fixed)
    rw [textName_symbol fixed]
    rcases symbolName_singleton small with ⟨plain,itself⟩ | digits
    · rw [itself]
      have other : c ≠ '\n' := by
        intro same
        rw [same] at plain
        exact absurd plain (by decide)
      simp [isPlain,small,other]
    · rw [digits]
      have high := digit_plain (c.toNat/16) (by omega)
      have low := digit_plain (c.toNat%16) (by omega)
      simpa [isPlain] using And.intro high low

theorem legible_dataLine {text : String} (declarable : Declarable text) :
    (dataLine text).isLegible = true := by
  have fixed_solid : ∀ name ∈ fixedNames, name.toList.all isWordChar = true := by decide
  have digit_solid : ∀ n < 16, isWordChar (Nat.digitChar n) = true := by decide
  have solid : (textName text).toList.all isWordChar = true := by
    by_cases fixed : text ∈ fixedTexts.map Prod.fst
    · exact fixed_solid _ (textName_fixed fixed)
    · obtain ⟨c,rfl,small⟩ := narrow_singleton (declarable.resolve_left fixed)
      rw [textName_symbol fixed]
      rcases symbolName_singleton small with ⟨plain,itself⟩ | digits
      · simp [itself,isWordChar,plain]
      · have high := digit_solid (c.toNat/16) (by omega)
        have low := digit_solid (c.toNat%16) (by omega)
        simp +decide [digits,high,low]
  have some : textBytes text ≠ [] := by
    have fixed_some : ∀ text ∈ fixedTexts.map Prod.fst, textBytes text ≠ [] := by decide
    rcases declarable with fixed | narrow
    · exact fixed_some text fixed
    · exact List.ne_nil_of_length_eq_add_one narrow
  have label : (dataLabel (textName text)).toList = "str_".toList ++ (textName text).toList :=
    String.toList_append
  have front : "str_".toList.all isWordChar = true ∧ "str_".toList.all Char.isDigit = false := by decide
  simp only [dataLine,Line.isLegible,isName,label,List.all_append,front.1,front.2,solid,Bool.true_and,
    Bool.false_and,Bool.not_false,List.isEmpty_eq_false_iff.mpr some]

theorem labels_data (texts : List String) :
    labels (headerLines ++ texts.map dataLine) = texts.map fun text => dataLabel (textName text) := by
  have lines : labels (texts.map dataLine) = texts.map fun text => dataLabel (textName text) := by
    induction texts with
    | nil => rfl
    | cons text texts ih => rw [List.map_cons,List.map_cons,← ih]; rfl
  rw [labels_append,lines]
  rfl

theorem dataLabel_not_fixed (name : String) : dataLabel name ∉ fixedLabels := by
  have others : ∀ label ∈ fixedLabels, "str_".toList.isPrefixOf label.toList = false := by decide
  intro fixed
  exact dataLabel_ne (others _ fixed) name rfl

theorem symbols_emit (lines : List Line) (listing : Listing) :
    (listing.emit lines).symbols = listing.symbols := rfl

theorem Accepted.labeled_code (accepted : Accepted sizes program run) (state : UInt8) :
    Labeled (codeLines sizes run state) fixedLabels := by
  have tapeFits := accepted.tapeFits
  have bufferFits := accepted.bufferFits
  unfold drawnLength at bufferFits
  exact TapeMachine.Assembly.labeled_code (by omega) (by omega) run state

theorem compiled_parts {listing : Listing} (compiled : sizes.compile program = .ok listing) :
    ∃ run state, Accepted sizes program run ∧
      listing.symbols = (declarations program run).eraseDups.map (fun text => (text,textName text)) ∧
      listing.lines = headerLines ++ (declarations program run).eraseDups.map dataLine ++
        codeLines sizes run state := by
  obtain ⟨run,accepted,state,lines⟩ := compiled_lines compiled
  have declared := data_declared program run
  refine ⟨run,state,accepted,?_,?_⟩
  · rw [← declared.symbols]
    unfold Sizes.compile at compiled
    rw [accept_of_accepted accepted] at compiled
    dsimp only at compiled
    split at compiled
    · cases compiled
    · cases compiled
    · rw [← Except.ok.inj compiled,symbols_emit]
  · rw [lines,compiledLines,declared.lines]
    rfl

section

variable {listing : Listing} {state : UInt8} (accepted : Accepted sizes program run)
  (lines : listing.lines = headerLines ++ (declarations program run).eraseDups.map dataLine ++
    codeLines sizes run state)
include accepted lines

theorem line_cases {line : Line} (member : line ∈ listing.lines) : line.Ordinary ∨
    ∃ text, Declarable text ∧ line = dataLine text := by
  have header : Labeled headerLines [] := ⟨rfl,rfl⟩
  rw [lines] at member
  rcases List.mem_append.mp member with early | code
  · rcases List.mem_append.mp early with first | data
    · exact .inl (header.ordinary line first)
    · obtain ⟨text,declared,rfl⟩ := List.mem_map.mp data
      exact .inr ⟨text,declarable_of_mem accepted declared,rfl⟩
  · exact .inl ((accepted.labeled_code state).ordinary line code)

theorem labels_compiled : labels listing.lines =
    (declarations program run).eraseDups.map (fun text => dataLabel (textName text)) ++
      fixedLabels := by
  rw [lines,labels_append,labels_data,(accepted.labeled_code state).defines]

theorem mentioned_defined {line : Line} (member : line ∈ listing.lines) {label : String}
    (mentioned : label ∈ line.mentioned) : label ∈ labels listing.lines := by
  rw [labels_compiled accepted lines,List.mem_append]
  rcases line_cases accepted lines member with usual | data
  · rcases List.mem_cons.mp (usual.known label mentioned) with lineEnd | fixed
    · have declared : "\n" ∈ (declarations program run).eraseDups := by
        simp [declarations,fixedTexts]
      exact .inl (List.mem_map.mpr ⟨"\n",declared,lineEnd.symm⟩)
    · exact .inr fixed
  · obtain ⟨text,_,rfl⟩ := data
    cases mentioned

theorem labels_nodup : (labels listing.lines).Nodup := by
  have fixed : fixedLabels.Nodup := by decide
  rw [labels_compiled accepted lines,List.nodup_append]
  refine ⟨dataLabels_nodup accepted,fixed,?_⟩
  intro label data other known same
  obtain ⟨text,_,rfl⟩ := List.mem_map.mp data
  exact dataLabel_not_fixed _ (same ▸ known)

theorem line_plain {line : Line} (member : line ∈ listing.lines) : isPlain line.text = true := by
  refine Line.isPlain_text ?_
  rcases line_cases accepted lines member with usual | data
  · exact usual.plain
  · obtain ⟨text,declarable,rfl⟩ := data
    intro part found
    rw [List.mem_singleton.mp found,dataLabel,isPlain_append,isPlain_textName declarable]
    rfl

theorem line_legible {line : Line} (member : line ∈ listing.lines) : line.isLegible = true := by
  rcases line_cases accepted lines member with usual | data
  · exact usual.legible
  · obtain ⟨text,declarable,rfl⟩ := data
    exact legible_dataLine declarable

end

theorem not_newline_of_plain {text : String} (plain : isPlain text = true) : '\n' ∉ text.toList := by
  intro found
  simpa using List.all_eq_true.mp plain '\n' found

theorem read?_compiled {listing : Listing} (compiled : sizes.compile program = .ok listing) :
    read? listing.text = some listing.lines := by
  obtain ⟨run,state,accepted,_,lines⟩ := compiled_parts compiled
  have any : listing.lines ≠ [] := by
    rw [lines]
    exact List.cons_ne_nil _ _
  exact read?_text any (fun line member => not_newline_of_plain (line_plain accepted lines member))
    fun line member => line_legible accepted lines member

end

end TapeMachine.Assembly
