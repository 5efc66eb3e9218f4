import Mathlib.Data.List.Nodup
import TapeMachine.Proofs.Acceptance
import TapeMachine.Proofs.Drawing

-- The drawing routine of a compiled listing by itself, called with the head anywhere. It draws
-- what memory holds then, into just the bytes that the drawing takes, each of which it stores once.
namespace TapeMachine.Assembly

theorem painted_spots (label : String) (bytes : List UInt8) :
    (painted label bytes).reverse.map Prod.fst =
      (List.range bytes.length).map fun i : Nat => (⟨label,i⟩ : Spot) := by
  induction bytes using List.reverseRecOn with
  | nil => rfl
  | append_singleton bytes byte ih =>
    rw [painted_append,List.reverse_cons,List.map_append,ih,List.length_append,List.length_singleton,
      List.range_succ,List.map_append]
    rfl

theorem painted_once (label : String) (bytes : List UInt8) : ((painted label bytes).map Prod.fst).Nodup := by
  refine List.nodup_reverse.mp ?_
  rw [← List.map_reverse,painted_spots]
  refine List.Nodup.map ?_ List.nodup_range
  intro i j same
  exact Int.natCast_inj.mp (congrArg Spot.distance same)

structure Held (host : Host) (stores : List (Spot × UInt8)) (cells : List UInt8) (head : UInt8) : Prop where
  cells : ∀ (place : Nat) byte, cells[place]? = some byte → host.content stores ⟨tapeLabel,place⟩ = byte
  head : host.content stores ⟨headLabel,0⟩ = head

def Host.called? (host : Host) (registers : Registers) (back : List Line) (stack : List Pushed)
    (stores : List (Spot × UInt8)) (output : List UInt8) : Option Processor :=
  (behind? printerLabel host.lines).map fun code => ⟨code,registers,.behind back :: stack,stores,output⟩

structure Draws (sizes : Sizes) (host : Host) (cells : List String) (head : Nat)
    (first last : Processor) : Prop where
  reaches : host.Reaches first last
  passes : ∀ p, host.Reaches first p → host.Reaches p last ∨ host.Reaches last p
  returns : first.stack = .behind last.code :: last.stack
  output : last.output = first.output
  registers : last.registers =
    Function.update first.registers .rdx (.number (textBytes (drawTape cells head)).length)
  drawing : (List.range (textBytes (drawTape cells head)).length).map
    (fun i : Nat => host.content last.stores ⟨bufferLabel,i⟩) = textBytes (drawTape cells head)
  others : ∀ spot, spot.label ≠ bufferLabel → host.content last.stores spot = host.content first.stores spot
  stores : ∃ made, last.stores = made ++ first.stores ∧
    made.reverse.map Prod.fst =
      (List.range (2*cells.length+2*head+8)).map (fun i : Nat => ⟨bufferLabel,i⟩) ∧
    (made.map Prod.fst).Nodup
  count : (textBytes (drawTape cells head)).length = 2*cells.length+2*head+8
  fits : 2*(cells.length : Int)+2*head+7 < sizes.printBuffer
  farthest : head = cells.length → ((textBytes (drawTape cells head)).length : Int) = drawnLength cells.length

theorem painted_read {host : Host} (label : String) (bytes : List UInt8) (old : List (Spot × UInt8)) :
    (List.range bytes.length).map (fun i : Nat => host.content (painted label bytes ++ old) ⟨label,i⟩) =
      bytes := by
  refine List.ext_getElem (by simp) fun i inside _ => ?_
  rw [List.getElem_map,List.getElem_range]
  exact Host.content_painted label bytes old i _ (List.getElem?_eq_getElem _)

section

variable {sizes : Sizes} {host : Host} {cells : List String} {registers : Registers}
  {stack : List Pushed} {stores : List (Spot × UInt8)} {output : List UInt8}

-- All the rest follows from the bytes being laid out in the buffer one after the other.
theorem draws_of_reaches {head : Nat} {code back : List Line} {bytes : List UInt8}
    (drawn : textBytes (drawTape cells head) = bytes) (count : bytes.length = 2*cells.length+2*head+8)
    (within : head ≤ cells.length) (bufferFits : drawnLength cells.length ≤ sizes.printBuffer)
    (reaches : host.Reaches ⟨code,registers,.behind back :: stack,stores,output⟩
      ⟨back,Function.update registers .rdx (.number bytes.length),stack,
        painted bufferLabel bytes ++ stores,output⟩) :
    Draws sizes host cells head ⟨code,registers,.behind back :: stack,stores,output⟩
      ⟨back,Function.update registers .rdx (.number bytes.length),stack,
        painted bufferLabel bytes ++ stores,output⟩ := by
  rw [drawnLength_eq] at bufferFits
  subst drawn
  refine ⟨reaches,?_,rfl,rfl,rfl,painted_read bufferLabel _ stores,?_,⟨_,rfl,?_,painted_once _ _⟩,count,?_,?_⟩
  · exact fun p passed => Host.reaches_either passed reaches
  · exact fun spot other => Host.content_painted_other other
  · rw [painted_spots,count]
  · omega
  · intro last
    rw [drawnLength_eq,count]
    omega

end

theorem Accepted.drawn {sizes : Sizes} {program : Program} {run : Run}
    (accepted : Accepted sizes program run) (head : Nat) :
    textBytes (drawTape run.tape head) = drawnBytes (run.tape.flatMap textBytes) head ∧
      (drawnBytes (run.tape.flatMap textBytes) head).length = 2*run.tape.length+2*head+8 := by
  constructor
  · rw [textBytes_drawTape accepted.narrow_tape accepted.filled]
    rfl
  · rw [drawnBytes_length,narrow_length accepted.narrow_tape]

theorem routine_draws {sizes : Sizes} {program : Program} {listing : Listing} {run : Run}
    (compiled : sizes.compile program = .ok listing) (single : program.runs = [run]) :
    ∃ lines, read? listing.text = some lines ∧
      ∀ initial clobbered registers (n : Int) back stack stores output (head : UInt8),
        head.toNat ≤ run.tape.length →
        Held ⟨lines,initial,clobbered⟩ stores (run.tape.flatMap textBytes) head →
        ∃ first last, Host.called? ⟨lines,initial,clobbered⟩
            (Function.update registers .rax (.number n)) back stack stores output = some first ∧
          Draws sizes ⟨lines,initial,clobbered⟩ run.tape head.toNat first last := by
  obtain ⟨only,accepted,state,lines⟩ := compiled_lines compiled
  cases single.symm.trans accepted.single
  refine ⟨listing.lines,read?_compiled compiled,?_⟩
  intro initial clobbered registers n back stack stores output head within held
  have loaded : Loaded sizes run.tape state ⟨listing.lines,initial,clobbered⟩ := loaded_of lines
  obtain ⟨drawn,count⟩ := accepted.drawn head.toNat
  have length := narrow_length accepted.narrow_tape
  have tapeFits := accepted.tapeFits
  have bufferFits := accepted.bufferFits
  rw [drawnLength_eq] at bufferFits
  have printer := loaded.printer
  rw [← length] at printer
  -- The routine relies on rax for nothing but that it holds a number.
  have reaches := @Host.draws ⟨listing.lines,initial,clobbered⟩ sizes.printBuffer
    (Function.update registers .rax (.number n)) stack stores output _ sizes.tape n head head.toNat
    loaded.bufferRoom loaded.tapeRoom loaded.headRoom loaded.padding (by omega) (by omega) held.cells
    held.head rfl (by simp) back
  refine ⟨_,_,?_,draws_of_reaches drawn count within accepted.bufferFits reaches⟩
  rw [Host.called?,printer]
  rfl

theorem routine_draws_snug : ∃ listing, (⟨3,20⟩ : Sizes).compile snug = .ok listing ∧
    ∃ lines, read? listing.text = some lines ∧
    ∃ first last, Host.called? ⟨lines,fun _ => 0,fun _ => 0⟩
        (Function.update (fun _ => .number 0) .rax (.number 7)) [] []
        (painted tapeLabel [48,32,35] ++ [(⟨headLabel,0⟩,3)]) [] = some first ∧
      Draws ⟨3,20⟩ ⟨lines,fun _ => 0,fun _ => 0⟩ ["0"," ","#"] 3 first last ∧
      textBytes (drawTape ["0"," ","#"] 3) = textBytes "[ 0   # ]\n        ^\n" := by
  have accepts : ((⟨3,20⟩ : Sizes).compile snug).isOk = true := by decide +kernel
  cases compiled : (⟨3,20⟩ : Sizes).compile snug with
  | error cause =>
    rw [compiled] at accepts
    cases accepts
  | ok listing =>
    obtain ⟨lines,read,draws⟩ := routine_draws compiled rfl
    have tape : ["0"," ","#"].flatMap textBytes = [48,32,35] := by decide
    have held : Held ⟨lines,fun _ => 0,fun _ => 0⟩
        (painted tapeLabel [48,32,35] ++ [(⟨headLabel,0⟩,3)]) (["0"," ","#"].flatMap textBytes) 3 := by
      rw [tape]
      refine ⟨Host.content_painted tapeLabel _ _,?_⟩
      rw [Host.content_painted_other (by decide)]
      rfl
    obtain ⟨first,last,called,drawn⟩ := draws (fun _ => 0) (fun _ => 0) (fun _ => .number 0) 7 [] []
      _ [] 3 (by decide) held
    exact ⟨listing,rfl,lines,read,first,last,called,drawn,by decide⟩

end TapeMachine.Assembly
