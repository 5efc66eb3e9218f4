import Mathlib.Data.List.TakeWhile
import TapeMachine.Assembly.Compilation
import TapeMachine.Proofs.Painting

-- What a compiled listing is made of: the data part declares texts only, the buffers have the
-- asked sizes, and behind the start mark come the lines for the one run.
namespace TapeMachine.Assembly

structure Accepted (sizes : Sizes) (program : Program) (run : Run) : Prop where
  single : program.runs = [run]
  narrow : ∀ symbol ∈ program.occurrences, (textBytes symbol).length = 1
  filled : run.tape ≠ []
  tapeFits : (run.tape.length : Int) ≤ sizes.tape
  bufferFits : drawnLength run.tape.length ≤ sizes.printBuffer

theorem accepted_of {sizes : Sizes} {program : Program} {run : Run}
    (accepted : sizes.accept program = .ok run) : Accepted sizes program run := by
  unfold Sizes.accept at accepted
  split at accepted
  · rename_i only single
    dsimp only at accepted
    split at accepted
    · cases accepted
    · rename_i noWide
      split at accepted
      · cases accepted
      · rename_i filled
        split at accepted
        · cases accepted
        · rename_i tapeFits
          split at accepted
          · cases accepted
          · rename_i bufferFits
            cases accepted
            refine ⟨single,?_,?_,Int.not_lt.mp tapeFits,Int.not_lt.mp bufferFits⟩
            · intro symbol member
              simpa using List.find?_eq_none.mp noWide symbol member
            · intro empty
              exact filled (by simp [empty])
  · cases accepted

namespace Accepted
variable {sizes : Sizes} {program : Program} {run : Run}

theorem narrow_state (accepted : Accepted sizes program run) : (textBytes run.state).length = 1 :=
  accepted.narrow run.state (by simp [Program.occurrences,accepted.single])

theorem narrow_tape (accepted : Accepted sizes program run) :
    ∀ symbol ∈ run.tape, (textBytes symbol).length = 1 := fun symbol member =>
  accepted.narrow symbol (by simp [Program.occurrences,accepted.single,member])

end Accepted

def unmarked (lines : List Line) : Bool :=
  lines.all fun
    | .mark _ => false
    | _ => true

theorem unmarked_append (first rest : List Line) :
    unmarked (first ++ rest) = (unmarked first && unmarked rest) := List.all_append

theorem ne_mark {lines : List Line} (plain : unmarked lines = true) (label : String) :
    ∀ line ∈ lines, decide (line ≠ .mark label) = true := by
  intro line member
  have unlike := List.all_eq_true.mp plain line member
  cases line <;> simp_all

theorem behind?_plain {first : List Line} (plain : unmarked first = true) (label : String)
    (rest : List Line) : behind? label (first ++ rest) = behind? label rest := by
  rw [behind?,behind?,List.dropWhile_append_of_pos (ne_mark plain label)]

theorem behind?_mark (label : String) (rest : List Line) :
    behind? label (.mark label :: rest) = some rest := by
  simp [behind?]

theorem behind?_other {label other : String} (distinct : other ≠ label) (rest : List Line) :
    behind? label (.mark other :: rest) = behind? label rest := by
  simp [behind?,distinct]

structure Declares (before after : Listing) : Prop where
  symbols : ∃ more, after.symbols = before.symbols ++ more
  lines : ∃ more, after.lines = before.lines ++ more ∧
    ∀ line ∈ more, ∃ name bytes, line = .data (dataLabel name) bytes

theorem Declares.trans {first middle last : Listing} (start : Declares first middle)
    (finish : Declares middle last) : Declares first last := by
  obtain ⟨⟨symbols,named⟩,lines,emitted,data⟩ := start
  obtain ⟨⟨symbols',named'⟩,lines',emitted',data'⟩ := finish
  refine ⟨⟨symbols ++ symbols',?_⟩,lines ++ lines',?_,?_⟩
  · rw [named',named,List.append_assoc]
  · rw [emitted',emitted,List.append_assoc]
  · intro line member
    rcases List.mem_append.mp member with early | late
    · exact data line early
    · exact data' line late

theorem declare_declares (text : String) (name : Option String) (listing : Listing) :
    Declares listing (listing.declare text name).2 := by
  unfold Listing.declare
  split
  · exact ⟨⟨[],by simp⟩,[],by simp,by simp⟩
  · exact ⟨⟨_,rfl⟩,_,Listing.lines_emit _ _,by simp⟩

theorem declareAll_declares (texts : List (String × Option String)) (listing : Listing) :
    Declares listing (listing.declareAll texts) := by
  induction texts generalizing listing with
  | nil => exact ⟨⟨[],by simp [Listing.declareAll]⟩,[],by simp [Listing.declareAll],by simp⟩
  | cons text texts ih => exact (declare_declares text.1 text.2 listing).trans (ih _)

def headerLines : List Line := [.elf,.empty,.part ".data" "writeable"]

def fixedListing : Listing := (Listing.blank.emit headerLines).declareAll fixedTexts

theorem data_declares (program : Program) (run : Run) :
    Declares fixedListing (Listing.data program run) := declareAll_declares _ _

theorem lookup_lineEnd (program : Program) (run : Run) :
    (Listing.data program run).symbols.lookup "\n" = some "nl" := by
  obtain ⟨more,named⟩ := (data_declares program run).symbols
  have fixed : fixedListing.symbols.lookup "\n" = some "nl" := by decide
  rw [named,List.lookup_append,fixed]
  rfl

theorem data_lines (program : Program) (run : Run) :
    ∃ more, (Listing.data program run).lines = headerLines ++ more ∧
      ∀ line ∈ more, ∃ name bytes, line = .data (dataLabel name) bytes :=
  ((declareAll_declares fixedTexts (Listing.blank.emit headerLines)).trans
    (data_declares program run)).lines

theorem unmarked_data (program : Program) (run : Run) :
    unmarked (Listing.data program run).lines = true := by
  obtain ⟨more,emitted,data⟩ := data_lines program run
  have declared : unmarked more = true := List.all_eq_true.mpr fun line member => by
    obtain ⟨name,bytes,rfl⟩ := data line member
    rfl
  rw [emitted,unmarked_append,declared]
  rfl

theorem room?_data (program : Program) (run : Run) {label : String}
    (other : ∀ name, dataLabel name ≠ label) :
    room? label (Listing.data program run).lines = none := by
  obtain ⟨more,emitted,data⟩ := data_lines program run
  have declared : more.findSome? (Line.room? label) = none := by
    rw [List.findSome?_eq_none_iff]
    intro line member
    obtain ⟨name,bytes,rfl⟩ := data line member
    simp [Line.room?,other name]
  rw [room?,emitted,List.findSome?_append,declared]
  rfl

theorem lineEnd_room (program : Program) (run : Run) (rest : List Line) :
    room? (dataLabel "nl") ((Listing.data program run).lines ++ rest) = some 1 := by
  obtain ⟨more,emitted,_⟩ := (data_declares program run).lines
  have fixed : fixedListing.lines.findSome? (Line.room? (dataLabel "nl")) = some 1 := by decide
  rw [room?,emitted,List.append_assoc,List.findSome?_append,fixed]
  rfl

theorem lineEnd_bytes (program : Program) (run : Run) (rest : List Line) :
    ((Listing.data program run).lines ++ rest).findSome? (Line.bytes? (dataLabel "nl")) = some [10] := by
  obtain ⟨more,emitted,_⟩ := (data_declares program run).lines
  have fixed : fixedListing.lines.findSome? (Line.bytes? (dataLabel "nl")) = some [10] := by decide
  rw [emitted,List.append_assoc,List.findSome?_append,fixed]
  rfl

theorem dataLabel_ne {label : String} (other : "str_".toList.isPrefixOf label.toList = false) (name : String) :
    dataLabel name ≠ label := by
  intro same
  subst same
  simp [dataLabel] at other

section
variable {cells : List String} (narrow : ∀ symbol ∈ cells, (textBytes symbol).length = 1)
include narrow

theorem cellLines_ok (place : Nat) : (cellLines place cells).2 = .ok () := by
  induction cells generalizing place with
  | nil => rfl
  | cons symbol cells ih =>
    obtain ⟨byte,_,code⟩ := byte_of_narrow (narrow symbol (by simp))
    simp only [cellLines,code]
    exact ih (fun symbol member => narrow symbol (List.mem_cons_of_mem _ member)) _

end

theorem unmarked_cellLines (cells : List String) (place : Nat) :
    unmarked (cellLines place cells).1 = true := by
  induction cells generalizing place with
  | nil => rfl
  | cons symbol cells ih =>
    rw [cellLines]
    split
    · rfl
    · exact ih (place+1)

theorem unmarked_printedCells (count : Nat) :
    unmarked ((List.range count).flatMap printedCellLines) = true := by
  induction count with
  | zero => rfl
  | succ count ih =>
    rw [List.range_succ,List.flatMap_append,unmarked_append,ih]
    rfl

def lineEndLines : List Line :=
  [.code (.set .rdx 1),.code (.point .rsi (dataLabel "nl"))] ++ writeLines (dataLabel "nl")

def mainLines (state : Int) (cells : List String) (rest : List Line) : List Line :=
  [.code (.storeByte (.at headLabel) 0),.code (.storeByte (.at stateLabel) state),
    .comment "initial tape"] ++ ((cellLines 0 cells).1 ++
  ([.code (.set .rdx cells.length),.code (.point .rsi tapeLabel)] ++ (writeLines tapeLabel ++
    (lineEndLines ++ ([.code (.call printerLabel),.code (.point .rsi bufferLabel)] ++
      (writeLines bufferLabel ++ (lineEndLines ++ (exitLines 0 ++ rest))))))))

theorem mainLines_eq (state : Int) (cells : List String) (rest : List Line) :
    mainLines state cells rest = mainLines state cells [] ++ rest := by
  simp [mainLines]

theorem programLines_ok {run : Run} (narrowState : (textBytes run.state).length = 1)
    (narrow : ∀ symbol ∈ run.tape, (textBytes symbol).length = 1) (program : Program) :
    ∃ state : UInt8, programLines run (Listing.data program run) =
      .ok ([.part ".text" "executable",.exported startLabel,.empty,.mark startLabel] ++
        mainLines state.toNat run.tape (printerLines run.tape.length)) := by
  obtain ⟨state,_,code⟩ := byte_of_narrow narrowState
  refine ⟨state,?_⟩
  have lineEnd : printLines "\n" (Listing.data program run) = .ok lineEndLines := by
    rw [printLines,lookup_lineEnd]
    rfl
  have tape : tapeLines run.tape = (.comment "initial tape" :: (cellLines 0 run.tape).1,.ok ()) := by
    rw [tapeLines,←cellLines_ok narrow 0]
  unfold programLines
  rw [code,tape,lineEnd]
  refine congrArg Except.ok ?_
  simp [mainLines,printAddressLines]

theorem buffers_ok {lines : List Line} (written : (writable lines).2 = .ok ()) :
    (writable lines).1 = lines := by
  unfold writable at written ⊢
  split at written
  · rename_i all
    exact List.takeWhile_eq_self_iff.mpr (List.all_eq_true.mp all)
  · cases written

def compiledLines (sizes : Sizes) (program : Program) (run : Run) (state : UInt8) : List Line :=
  (Listing.data program run).lines ++ (bufferLines sizes.tape sizes.printBuffer ++
    ([.part ".text" "executable",.exported startLabel,.empty,.mark startLabel] ++
      mainLines state.toNat run.tape (printerLines run.tape.length)))

theorem compiled_lines {sizes : Sizes} {program : Program} {listing : Listing}
    (compiled : sizes.compile program = .ok listing) :
    ∃ run, Accepted sizes program run ∧
      ∃ state, listing.lines = compiledLines sizes program run state := by
  unfold Sizes.compile at compiled
  split at compiled
  · cases compiled
  · rename_i run accepts
    have accepted := accepted_of accepts
    obtain ⟨state,lines⟩ := programLines_ok accepted.narrow_state accepted.narrow_tape program
    refine ⟨run,accepted,state,?_⟩
    dsimp only at compiled
    rw [lines] at compiled
    split at compiled
    · cases compiled
    · cases compiled
    · rename_i written text
      cases text
      cases compiled
      rw [Listing.lines_emit,buffers_ok written]
      rfl

section
variable (sizes : Sizes) (program : Program) (run : Run) (state : UInt8)

theorem room?_compiled {label : String} {size : Int}
    (other : "str_".toList.isPrefixOf label.toList = false)
    (room : ∀ rest, room? label (bufferLines sizes.tape sizes.printBuffer ++ rest) = some size) :
    room? label (compiledLines sizes program run state) = some size := by
  have outside := room?_data program run (dataLabel_ne other)
  rw [room?] at outside
  rw [compiledLines,room?,List.findSome?_append,outside]
  exact room _

theorem behind?_compiled {label : String} (rest : List Line)
    (found : behind? label (.mark startLabel ::
      mainLines state.toNat run.tape (printerLines run.tape.length)) = some rest) :
    behind? label (compiledLines sizes program run state) = some rest := by
  have plain : unmarked ((Listing.data program run).lines ++ (bufferLines sizes.tape sizes.printBuffer ++
      [.part ".text" "executable",.exported startLabel,.empty])) = true := by
    rw [unmarked_append,unmarked_data]
    rfl
  have parted : compiledLines sizes program run state = ((Listing.data program run).lines ++
      (bufferLines sizes.tape sizes.printBuffer ++ [.part ".text" "executable",.exported startLabel,.empty])) ++
        .mark startLabel :: mainLines state.toNat run.tape (printerLines run.tape.length) := by
    simp [compiledLines]
  rw [parted,behind?_plain plain]
  exact found

theorem behind?_main {label : String} (rest : List Line)
    (found : behind? label (.mark printerLabel :: routineLines run.tape.length) = some rest) :
    behind? label (mainLines state.toNat run.tape (printerLines run.tape.length)) = some rest := by
  have plain : unmarked (mainLines state.toNat run.tape [] ++ [.empty]) = true := by
    simp only [mainLines,unmarked_append,unmarked_cellLines]
    rfl
  rw [mainLines_eq,printerLines_eq,List.append_cons,behind?_plain plain]
  exact found

theorem behind?_routine (length : Nat) :
    behind? paddingLabel (routineLines length) = some (paddingLines ++ caretLines) := by
  have plain : unmarked (openingLines ++ ((List.range length).flatMap printedCellLines ++
      closingLines length)) = true := by
    rw [unmarked_append,unmarked_append,unmarked_printedCells]
    rfl
  have parted : routineLines length = (openingLines ++ ((List.range length).flatMap printedCellLines ++
      closingLines length)) ++ .mark paddingLabel :: (paddingLines ++ caretLines) := by
    simp [routineLines]
  rw [parted,behind?_plain plain,behind?_mark]

end

-- All that the code relies on in the listing it stands in.
structure Loaded (sizes : Sizes) (cells : List String) (state : UInt8) (host : Host) : Prop where
  headRoom : room? headLabel host.lines = some 1
  stateRoom : room? stateLabel host.lines = some 1
  tapeRoom : room? tapeLabel host.lines = some sizes.tape
  bufferRoom : room? bufferLabel host.lines = some sizes.printBuffer
  lineEndRoom : room? (dataLabel "nl") host.lines = some 1
  lineEnd : host.declared? ⟨dataLabel "nl",0⟩ = some 10
  start : behind? startLabel host.lines =
    some (mainLines state.toNat cells (printerLines cells.length))
  printer : behind? printerLabel host.lines = some (routineLines cells.length)
  padding : behind? paddingLabel host.lines = some (paddingLines ++ caretLines)

theorem loaded_of {sizes : Sizes} {program : Program} {run : Run} {state : UInt8} {host : Host}
    (lines : host.lines = compiledLines sizes program run state) : Loaded sizes run.tape state host := by
  refine ⟨?_,?_,?_,?_,?_,?_,?_,?_,?_⟩
  · rw [lines,room?_compiled _ _ _ _ (by decide) fun _ => rfl]
  · rw [lines,room?_compiled _ _ _ _ (by decide) fun _ => rfl]
  · rw [lines,room?_compiled _ _ _ _ (by decide) fun _ => rfl]
  · rw [lines,room?_compiled _ _ _ _ (by decide) fun _ => rfl]
  · rw [lines,compiledLines,lineEnd_room]
  · rw [Host.declared?,lines,compiledLines,lineEnd_bytes]
    rfl
  · rw [lines,behind?_compiled _ _ _ _ _ (behind?_mark _ _)]
  · rw [lines]
    apply behind?_compiled
    rw [behind?_other (by decide)]
    exact behind?_main _ _ _ (behind?_mark _ _)
  · rw [lines]
    apply behind?_compiled
    rw [behind?_other (by decide)]
    apply behind?_main
    rw [behind?_other (by decide)]
    exact behind?_routine _

end TapeMachine.Assembly
