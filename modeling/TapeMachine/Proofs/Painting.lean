import TapeMachine.Proofs.Processor
import TapeMachine.Proofs.SymbolBytes

-- Stores that lay bytes out one after the other, and the routine that lays out the drawing of
-- a tape.
namespace TapeMachine.Assembly

def painted (label : String) (bytes : List UInt8) : List (Spot × UInt8) :=
  (bytes.mapIdx fun (i : Nat) byte => (⟨label,i⟩,byte)).reverse

theorem painted_append (label : String) (bytes : List UInt8) (byte : UInt8) :
    painted label (bytes ++ [byte]) = (⟨label,bytes.length⟩,byte) :: painted label bytes := by
  simp [painted]

theorem lookup_painted (label : String) {bytes : List UInt8} {i : Nat} (inside : i < bytes.length)
    (old : List (Spot × UInt8)) :
    (painted label bytes ++ old).lookup ⟨label,i⟩ = bytes[i]? := by
  induction bytes using List.reverseRecOn with
  | nil => simp at inside
  | append_singleton bytes byte ih =>
    rw [painted_append,List.cons_append,List.lookup_cons]
    by_cases last : i = bytes.length
    · simp [last]
    · have before : i < bytes.length := by simp at inside; omega
      have other : ((⟨label,i⟩ : Spot) == ⟨label,bytes.length⟩) = false := by
        simp only [beq_eq_false_iff_ne,ne_eq,Spot.mk.injEq,Int.natCast_inj,last]
        decide
      rw [other,ih before,List.getElem?_append_left before]

theorem lookup_painted_other {label : String} {spot : Spot} (other : spot.label ≠ label)
    (bytes : List UInt8) (old : List (Spot × UInt8)) :
    (painted label bytes ++ old).lookup spot = old.lookup spot := by
  induction bytes using List.reverseRecOn with
  | nil => simp [painted]
  | append_singleton bytes byte ih =>
    have distinct : (spot == ⟨label,bytes.length⟩) = false := by
      simp only [beq_eq_false_iff_ne]
      intro same
      exact other (congrArg Spot.label same)
    rw [painted_append,List.cons_append,List.lookup_cons,distinct]
    exact ih

theorem mem_painted {label : String} {bytes : List UInt8} {spot : Spot} {byte : UInt8}
    (stored : (spot,byte) ∈ painted label bytes) :
    spot.label = label ∧ 0 ≤ spot.distance ∧ spot.distance < bytes.length := by
  simp only [painted,List.mem_reverse,List.mem_mapIdx,Prod.mk.injEq] at stored
  obtain ⟨i,inside,rfl,_⟩ := stored
  exact ⟨rfl,by simp,by simpa using inside⟩

theorem byte?_some {value : Int} {byte : UInt8} (same : value = byte.toNat) :
    byte? value = some byte := by
  have small := byte.toNat_lt
  subst same
  simp [byte?]
  omega

def openingLines : List Line :=
  [.code (.push .rax),.code (.push .rcx),.code (.storeByte (.at bufferLabel) (codeOf '[')),
    .code (.storeByte (.plus bufferLabel 1) (codeOf ' '))]

def closingLines (length : Int) : List Line :=
  [.code (.storeByte (.plus bufferLabel (2*length+2)) (codeOf ']')),
    .code (.storeByte (.plus bufferLabel (2*length+2+1)) (codeOf '\n')),
    .code (.loadByte .rcx (.at headLabel)),.code (.scale .rcx 2 2),
    .code (.set .rdx (2*length+2+2))]

def paddingLines : List Line :=
  [.code (.storeByte (.indexed bufferLabel .rdx) (codeOf ' ')),.code (.increment .rdx),
    .code (.loop paddingLabel)]

def caretLines : List Line :=
  [.code (.storeByte (.indexed bufferLabel .rdx) (codeOf '^')),.code (.increment .rdx),
    .code (.storeByte (.indexed bufferLabel .rdx) (codeOf '\n')),.code (.increment .rdx),
    .code (.pop .rcx),.code (.pop .rax),.code .ret]

def routineLines (length : Nat) : List Line :=
  openingLines ++ ((List.range length).flatMap printedCellLines ++
    (closingLines length ++ .mark paddingLabel :: (paddingLines ++ caretLines)))

theorem printerLines_eq (length : Nat) :
    printerLines length = .empty :: .mark printerLabel :: routineLines length := by
  simp [printerLines,routineLines,openingLines,closingLines,paddingLines,caretLines]

def counting (registers : Registers) (place counter : Int) : Registers
  | .rdx => .number place
  | .rcx => .number counter
  | register => registers register

theorem update_place (registers : Registers) (place counter next : Int) :
    Function.update (counting registers place counter) .rdx (.number next) =
      counting registers next counter := by
  funext register
  cases register <;> rfl

theorem update_counter (registers : Registers) (place counter next : Int) :
    Function.update (counting registers place counter) .rcx (.number next) =
      counting registers place next := by
  funext register
  cases register <;> rfl

namespace Host

variable {host : Host} {label : String} {size : Int} {registers : Registers}
  {stack : List Pushed} {old : List (Spot × UInt8)} {output bytes : List UInt8} {code : List Line}

theorem isInside_iff {spot : Spot} (room : room? spot.label host.lines = some size) :
    host.isInside spot = true ↔ 0 ≤ spot.distance ∧ spot.distance < size := by
  simp [isInside,room]

theorem content_painted_other {spot : Spot} (other : spot.label ≠ label) :
    host.content (painted label bytes ++ old) spot = host.content old spot := by
  rw [content,content,stored?,stored?,lookup_painted_other other]

theorem stored_painted (label : String) (bytes : List UInt8) (old : List (Spot × UInt8)) :
    ∀ i < bytes.length, host.stored? (painted label bytes ++ old) ⟨label,i⟩ = bytes[i]? := by
  intro i inside
  rw [stored?,lookup_painted label inside]
  simp [inside]

theorem content_painted (label : String) (bytes : List UInt8) (old : List (Spot × UInt8)) :
    ∀ (place : Nat) byte, bytes[place]? = some byte →
      host.content (painted label bytes ++ old) ⟨label,place⟩ = byte := by
  intro place byte found
  obtain ⟨inside,_⟩ := List.getElem?_eq_some_iff.mp found
  rw [content,stored_painted label bytes old place inside,found]
  rfl

theorem paint_next (room : room? label host.lines = some size) (fits : bytes.length < size)
    {address : Address} {value : Int} (byte : UInt8) (same : value = byte.toNat)
    (spot : Processor.spot? address ⟨code,registers,stack,painted label bytes ++ old,output⟩ =
      some ⟨label,bytes.length⟩) :
    host.step? ⟨.code (.storeByte address value) :: code,registers,stack,
        painted label bytes ++ old,output⟩ =
      some ⟨code,registers,stack,painted label (bytes ++ [byte]) ++ old,output⟩ := by
  have inside : host.isInside ⟨label,bytes.length⟩ = true := (isInside_iff room).mpr ⟨by simp,fits⟩
  rw [step?_code]
  simp [perform?,spot,byte?_some same,store?,inside,painted_append]

theorem increments (place counter : Int) (stores : List (Spot × UInt8)) :
    host.step? ⟨.code (.increment .rdx) :: code,counting registers place counter,stack,stores,output⟩ =
      some ⟨code,counting registers (place+1) counter,stack,stores,output⟩ := by
  rw [←update_place registers place counter (place+1)]
  rfl

theorem loops {target : List Line} (found : behind? paddingLabel host.lines = some target)
    (place counter : Int) (stores : List (Spot × UInt8)) :
    host.step? ⟨.code (.loop paddingLabel) :: code,counting registers place counter,stack,stores,output⟩ =
      some ⟨if counter-1 = 0 then code else target,counting registers place (counter-1),stack,
        stores,output⟩ := by
  rw [←update_counter registers place counter (counter-1),step?_code]
  simp only [perform?,goTo?,found]
  by_cases last : counter-1 = 0
  · simp [Processor.number?,Processor.put?,Register.isWhole,counting,last]
  · simp [Processor.number?,Processor.put?,Register.isWhole,counting,last]

theorem pads_once (room : room? bufferLabel host.lines = some size) (fits : bytes.length < size)
    (target : behind? paddingLabel host.lines = some (paddingLines ++ code)) (counter : Int) :
    host.Reaches ⟨paddingLines ++ code,counting registers bytes.length counter,stack,
        painted bufferLabel bytes ++ old,output⟩
      ⟨if counter-1 = 0 then code else paddingLines ++ code,
        counting registers (bytes ++ [32]).length (counter-1),stack,
        painted bufferLabel (bytes ++ [32]) ++ old,output⟩ := by
  have longer : ((bytes ++ [32]).length : Int) = bytes.length+1 := by simp
  rw [longer]
  exact .head (paint_next room fits 32 rfl rfl)
    (.head (increments _ _ _) (.single (loops target _ _ _)))

theorem pads (room : room? bufferLabel host.lines = some size)
    (target : behind? paddingLabel host.lines = some (paddingLines ++ code)) (count : Nat)
    (fits : bytes.length + count < size) :
    host.Reaches ⟨paddingLines ++ code,counting registers bytes.length (count+1 : Nat),stack,
        painted bufferLabel bytes ++ old,output⟩
      ⟨code,counting registers (bytes ++ List.replicate (count+1) 32).length 0,stack,
        painted bufferLabel (bytes ++ List.replicate (count+1) 32) ++ old,output⟩ := by
  induction count generalizing bytes with
  | zero => exact pads_once room (by omega) target 1
  | succ count ih =>
    have lap := @pads_once host size registers stack old output bytes code room (by omega) target
      (count+1+1 : Nat)
    have more : ((count+1+1 : Nat) : Int)-1 ≠ 0 := by omega
    have counted : ((count+1+1 : Nat) : Int)-1 = (count+1 : Nat) := by omega
    rw [if_neg more,counted] at lap
    rw [List.replicate_succ,List.append_cons]
    exact .trans lap (ih (by simp; omega))

theorem loads_low {distance : Int} {stores : List (Spot × UInt8)} {byte : UInt8}
    (inside : host.isInside ⟨label,distance⟩ = true)
    (holds : host.content stores ⟨label,distance⟩ = byte) (n : Int) :
    host.step? ⟨.code (.loadLow (.plus label distance)) :: code,
        Function.update registers .rax (.number n),stack,stores,output⟩ =
      some ⟨code,Function.update registers .rax
          (.number (n - n % 256 + byte.toNat)),stack,stores,output⟩ := by
  rw [step?_code]
  simp [perform?,holds,Processor.spot?,load?,inside,Processor.number?,Processor.put?,Register.isWhole]

theorem stores_low (room : room? label host.lines = some size) (fits : bytes.length < size)
    {n distance : Int} (byte : UInt8) (low : n % 256 = byte.toNat) (next : distance = bytes.length) :
    host.step? ⟨.code (.storeLow (.plus label distance)) :: code,
        Function.update registers .rax (.number n),stack,painted label bytes ++ old,output⟩ =
      some ⟨code,Function.update registers .rax (.number n),stack,
        painted label (bytes ++ [byte]) ++ old,output⟩ := by
  have inside : host.isInside ⟨label,bytes.length⟩ = true := (isInside_iff room).mpr ⟨by simp,fits⟩
  subst next
  rw [step?_code]
  simp [perform?,Processor.spot?,Processor.low?,Processor.number?,Register.isWhole,byte?_some low,
    store?,inside,painted_append]

theorem prints_cell {place : Nat} {byte : UInt8} (room : room? bufferLabel host.lines = some size)
    (inside : host.isInside ⟨tapeLabel,place⟩ = true)
    (cell : host.content (painted bufferLabel bytes ++ old) ⟨tapeLabel,place⟩ = byte)
    (behind : bytes.length = 2*place+2) (fits : (bytes.length : Int)+1 < size) (n : Int) :
    host.Reaches ⟨printedCellLines place ++ code,Function.update registers .rax (.number n),
        stack,painted bufferLabel bytes ++ old,output⟩
      ⟨code,Function.update registers .rax (.number (n - n % 256 + byte.toNat)),stack,
        painted bufferLabel (bytes ++ [byte,32]) ++ old,output⟩ := by
  have small := byte.toNat_lt
  refine .head (loads_low inside cell n) (.head (stores_low room (by omega) byte (by omega) (by omega))
    (.single ?_))
  rw [List.append_cons bytes byte [32]]
  exact paint_next room (by simp; omega) 32 rfl (by simp [Processor.spot?,behind])

theorem prints_cells {cells : List UInt8} {tapeSize : Int}
    (room : room? bufferLabel host.lines = some size)
    (tapeRoom : room? tapeLabel host.lines = some tapeSize)
    (fits : 2*cells.length+2 ≤ size) (held : cells.length ≤ tapeSize)
    (contents : ∀ (place : Nat) byte, cells[place]? = some byte →
      host.content old ⟨tapeLabel,place⟩ = byte)
    (n : Int) : ∀ count ≤ cells.length, ∀ code, ∃ m, host.Reaches
      ⟨(List.range count).flatMap printedCellLines ++ code,Function.update registers .rax (.number n),
        stack,painted bufferLabel [91,32] ++ old,output⟩
      ⟨code,Function.update registers .rax (.number m),stack,
        painted bufferLabel ([91,32] ++ cellBytes (cells.take count)) ++ old,output⟩ := by
  intro count
  induction count with
  | zero => exact fun _ code => ⟨n,.refl⟩
  | succ count ih =>
    intro inside code
    have here : count < cells.length := inside
    obtain ⟨m,before⟩ := ih (by omega) (printedCellLines count ++ code)
    have taken : cells.take (count+1) = cells.take count ++ [cells[count]] := by simp
    have bytes : cellBytes (cells.take (count+1)) = cellBytes (cells.take count) ++ [cells[count],32] := by
      rw [taken,cellBytes,List.flatMap_append,List.flatMap_singleton]
      rfl
    have length : ([91,32] ++ cellBytes (cells.take count)).length = 2*count+2 := by
      simp [cellBytes_length]; omega
    have inTape : host.isInside ⟨tapeLabel,count⟩ = true := (isInside_iff tapeRoom).mpr (by simp; omega)
    have cell : host.content (painted bufferLabel ([91,32] ++ cellBytes (cells.take count)) ++ old)
        ⟨tapeLabel,count⟩ = cells[count] := by
      rw [content_painted_other (by simp [tapeLabel,bufferLabel])]
      exact contents count cells[count] (by simp)
    have unrolled : (List.range (count+1)).flatMap printedCellLines ++ code =
        (List.range count).flatMap printedCellLines ++ (printedCellLines count ++ code) := by
      rw [List.range_succ,List.flatMap_append,List.flatMap_singleton,List.append_assoc]
    rw [unrolled,bytes,←List.append_assoc [91,32]]
    exact ⟨_,before.trans (prints_cell room inTape cell length (by omega) m)⟩

theorem opens (room : room? bufferLabel host.lines = some size) (fits : 2 ≤ size) :
    host.Reaches ⟨openingLines ++ code,registers,stack,old,output⟩
      ⟨code,registers,.word (registers .rcx) :: .word (registers .rax) :: stack,
        painted bufferLabel [91,32] ++ old,output⟩ := by
  refine .head (step?_push rfl _) (.head (step?_push rfl _) ?_)
  change host.Reaches ⟨_,registers,_,painted bufferLabel [] ++ old,output⟩ _
  exact .head (paint_next room (by simp; omega) 91 rfl rfl)
    (.single (paint_next room (by simp; omega) 32 rfl rfl))

theorem closes {length : Nat} {head : UInt8} (room : room? bufferLabel host.lines = some size)
    (headRoom : room? headLabel host.lines = some 1)
    (under : host.content old ⟨headLabel,0⟩ = head) (behind : bytes.length = 2*length+2)
    (fits : (bytes.length : Int)+2 ≤ size) :
    host.Reaches ⟨closingLines length ++ .mark paddingLabel :: code,registers,stack,
        painted bufferLabel bytes ++ old,output⟩
      ⟨code,counting registers (bytes ++ [93,10]).length (2*head.toNat+2 : Nat),stack,
        painted bufferLabel (bytes ++ [93,10]) ++ old,output⟩ := by
  have headInside : host.isInside ⟨headLabel,0⟩ = true := (isInside_iff headRoom).mpr (by decide)
  have under' : host.content (painted bufferLabel (bytes ++ [93] ++ [10]) ++ old) ⟨headLabel,0⟩ = head := by
    rw [content_painted_other (by simp [headLabel,bufferLabel])]
    exact under
  have set : counting registers (bytes ++ [93,10]).length (2*head.toNat+2 : Nat) =
      Function.update (Function.update (Function.update registers .rcx (.number head.toNat)) .rcx
        (.number (head.toNat*2+2))) .rdx (.number (2*length+2+2)) := by
    funext register
    cases register <;> simp [counting,Function.update,behind,Int.mul_comm]
  rw [set,List.append_cons bytes 93 [10]]
  refine .head (paint_next room (by omega) 93 rfl (by simp [Processor.spot?,behind])) ?_
  refine .head (paint_next room (by simp; omega) 10 rfl (by simp [Processor.spot?,behind])) ?_
  exact .head (step?_loadByte rfl headInside under') (.head (step?_scale rfl (by simp) 2 2 _)
    (.head (step?_set rfl _ _) (.single (step?_idle rfl _))))

theorem finishes (room : room? bufferLabel host.lines = some size)
    (fits : (bytes.length : Int)+2 ≤ size) (counter : Int) (counted used : Word) (back : List Line) :
    host.Reaches ⟨caretLines ++ code,counting registers bytes.length counter,
        .word counted :: .word used :: .behind back :: stack,painted bufferLabel bytes ++ old,output⟩
      ⟨back,Function.update (Function.update (counting registers (bytes ++ [94,10]).length counter)
          .rcx counted) .rax used,stack,painted bufferLabel (bytes ++ [94,10]) ++ old,output⟩ := by
  have place : ((bytes ++ [94]).length : Int) = bytes.length+1 := by simp
  have place' : ((bytes ++ [94,10]).length : Int) = bytes.length+1+1 := by simp; omega
  rw [place',List.append_cons bytes 94 [10]]
  refine .head (paint_next room (by omega) 94 rfl rfl) (.head (increments _ _ _) ?_)
  rw [←place]
  exact .head (paint_next room (by omega) 10 rfl rfl) (.head (increments _ _ _)
    (.head (step?_pop rfl _ _) (.head (step?_pop rfl _ _) (.single (step?_ret _ _)))))

-- The whole routine: it lays the drawing out from the buffer's beginning on, byte after byte,
-- leaves its length in rdx, and everything else as it was.
theorem draws {cells : List UInt8} {tapeSize : Int} {n : Int} {byte : UInt8} (head : Nat)
    (room : room? bufferLabel host.lines = some size)
    (tapeRoom : room? tapeLabel host.lines = some tapeSize)
    (headRoom : room? headLabel host.lines = some 1)
    (target : behind? paddingLabel host.lines = some (paddingLines ++ caretLines))
    (fits : 2*cells.length+2*head+8 ≤ size) (held : cells.length ≤ tapeSize)
    (contents : ∀ (place : Nat) byte, cells[place]? = some byte →
      host.content old ⟨tapeLabel,place⟩ = byte)
    (under : host.content old ⟨headLabel,0⟩ = byte) (place : byte.toNat = head)
    (used : registers .rax = .number n) (back : List Line) :
    host.Reaches ⟨routineLines cells.length,registers,.behind back :: stack,old,output⟩
      ⟨back,Function.update registers .rdx (.number (drawnBytes cells head).length),stack,
        painted bufferLabel (drawnBytes cells head) ++ old,output⟩ := by
  subst place
  have cellsLength := cellBytes_length cells
  have kept : Function.update registers .rax (.number n) = registers := by simp [←used]
  have restored : ∀ m place counter, Function.update (Function.update
      (counting (Function.update registers .rax m) place counter) .rcx (registers .rcx))
      .rax (registers .rax) = Function.update registers .rdx (.number place) := by
    intro m place counter
    funext register
    cases register <;> simp [counting,Function.update]
  obtain ⟨m,printed⟩ := @prints_cells host size registers
    (.word (registers .rcx) :: .word (registers .rax) :: .behind back :: stack) old output cells
    tapeSize room tapeRoom (by omega) held contents n cells.length (Nat.le_refl _)
    (closingLines cells.length ++ .mark paddingLabel :: (paddingLines ++ caretLines))
  rw [kept,List.take_length] at printed
  refine .trans (opens room (by omega)) (.trans printed ?_)
  refine .trans (closes room headRoom under (by simp [cellsLength]) (by simp [cellsLength]; omega)) ?_
  refine .trans (pads room target (2*byte.toNat+1) (by simp; omega)) ?_
  rw [←restored (.number m) _ 0]
  exact finishes room (by simp; omega) _ _ _ _

end Host

end TapeMachine.Assembly
