import TapeMachine.Proofs.Ordinary

-- Running a compiled listing, as its text is read: it prints the tape and the drawing of its
-- beginning, and ends.
namespace TapeMachine.Assembly

def allStores (state : UInt8) (tape : List UInt8) : List (Spot × UInt8) :=
  painted bufferLabel (drawnBytes tape 0) ++
    (painted tapeLabel tape ++ [(⟨stateLabel,0⟩,state),(⟨headLabel,0⟩,0)])

theorem allStores_inside {sizes : Sizes} {state : UInt8} {tape : List UInt8}
    (tapeFits : tape.length ≤ sizes.tape) (bufferFits : 2*tape.length+8 ≤ sizes.printBuffer) :
    ∀ spot byte, (spot,byte) ∈ allStores state tape → 0 ≤ spot.distance ∧
      (spot.label = tapeLabel → spot.distance < sizes.tape) ∧
      (spot.label = bufferLabel → spot.distance < sizes.printBuffer) := by
  intro spot byte stored
  have drawn := drawnBytes_length tape 0
  rcases List.mem_append.mp stored with buffer | stored
  · obtain ⟨label,first,last⟩ := mem_painted buffer
    refine ⟨first,?_,fun _ => by omega⟩
    intro other
    exact absurd (label.symm.trans other) (by decide)
  · rcases List.mem_append.mp stored with tape | single
    · obtain ⟨label,first,last⟩ := mem_painted tape
      refine ⟨first,fun _ => by omega,?_⟩
      intro other
      exact absurd (label.symm.trans other) (by decide)
    · rcases List.mem_cons.mp single with state | rest
      · cases state
        exact ⟨by decide,fun other => absurd other (by decide),fun other => absurd other (by decide)⟩
      · cases List.mem_singleton.mp rest
        exact ⟨by decide,fun other => absurd other (by decide),fun other => absurd other (by decide)⟩

namespace Host

variable {host : Host} {registers : Registers} {stack : List Pushed}
  {stores old : List (Spot × UInt8)} {output bytes : List UInt8} {code : List Line}

theorem step?_storeAt {label : String} (room : room? label host.lines = some 1) {value : Int}
    (byte : UInt8) (same : value = byte.toNat) :
    host.step? ⟨.code (.storeByte (.at label) value) :: code,registers,stack,stores,output⟩ =
      some ⟨code,registers,stack,(⟨label,0⟩,byte) :: stores,output⟩ :=
  @paint_next host label 1 registers stack stores output [] code room (by decide) _ value byte same rfl

theorem stores_cells {size : Int} (room : room? tapeLabel host.lines = some size)
    {cells : List String} (narrow : ∀ symbol ∈ cells, (textBytes symbol).length = 1)
    (fits : bytes.length + cells.length ≤ size) :
    host.Reaches ⟨(cellLines bytes.length cells).1 ++ code,registers,stack,
        painted tapeLabel bytes ++ old,output⟩
      ⟨code,registers,stack,painted tapeLabel (bytes ++ cells.flatMap textBytes) ++ old,output⟩ := by
  induction cells generalizing bytes with
  | nil =>
    rw [List.flatMap_nil,List.append_nil]
    exact .refl
  | cons symbol cells ih =>
    obtain ⟨byte,single,point⟩ := byte_of_narrow (narrow symbol (by simp))
    have later := @ih (bytes ++ [byte]) (fun symbol member => narrow symbol (List.mem_cons_of_mem _ member))
      (by simp at fits ⊢; omega)
    rw [List.flatMap_cons,single,←List.append_assoc]
    simp only [cellLines,point]
    rw [List.length_append] at later
    exact .head (paint_next room (by simp at fits; omega) byte rfl rfl) later

theorem lays_tape {size : Int} (room : room? tapeLabel host.lines = some size)
    {cells : List String} (narrow : ∀ symbol ∈ cells, (textBytes symbol).length = 1)
    (fits : cells.length ≤ size) (tape : cells.flatMap textBytes = bytes) :
    host.Reaches ⟨(cellLines 0 cells).1 ++ code,registers,stack,old,output⟩
      ⟨code,registers,stack,painted tapeLabel bytes ++ old,output⟩ :=
  tape ▸ @stores_cells host registers stack old output [] code size room cells narrow (by simpa using fits)

section
variable {holds : Processor → Prop}

-- What is at a label goes out. Of the registers only this is told: rax holds a number.
theorem prints {label : String} {size : Int} (room : room? label host.lines = some size)
    (count : registers .rdx = .number bytes.length)
    (stored : ∀ i < bytes.length, host.stored? stores ⟨label,i⟩ = bytes[i]?) (remark : String)
    (later : ∀ registers', registers' .rax = .number bytes.length →
      host.Leads ⟨code,registers',stack,stores,output ++ bytes⟩ holds) :
    host.Leads ⟨.code (.point .rsi label) :: (writeLines remark ++ code),registers,stack,stores,output⟩
      holds := by
  refine .step (step?_point room rfl _) (.step (step?_set rfl _ _) (.step (step?_set rfl _ _)
    (.step (step?_write ?_ ?_ ?_ ?_ stored) (later _ ?_))))
  · simp [writeCall]
  · simp [standardOutput]
  · simp
  · simp [count]
  · simp

theorem prints_lineEnd (room : room? (dataLabel "nl") host.lines = some 1)
    (lineEnd : host.declared? ⟨dataLabel "nl",0⟩ = some 10)
    (fresh : stores.lookup ⟨dataLabel "nl",0⟩ = none)
    (later : ∀ registers' n, registers' .rax = .number n →
      host.Leads ⟨code,registers',stack,stores,output ++ [10]⟩ holds) :
    host.Leads ⟨lineEndLines ++ code,registers,stack,stores,output⟩ holds := by
  have count : Function.update registers .rdx (.number 1) .rdx = .number ([10] : List UInt8).length := by
    simp
  have stored : ∀ i < ([10] : List UInt8).length, host.stored? stores ⟨dataLabel "nl",i⟩ = [10][i]? := by
    simp [stored?,fresh,lineEnd]
  exact .step (step?_set rfl _ _) (prints room count stored (dataLabel "nl") fun registers' used =>
    later registers' _ used)

theorem exits (status : Int)
    (ended : ∀ last : Processor, last.exitStatus? = some status → last.stores = stores →
      last.output = output → holds last) :
    host.Leads ⟨exitLines status ++ code,registers,stack,stores,output⟩ holds := by
  refine .step (step?_idle rfl _) (.step (step?_set rfl _ _) (.step (step?_set rfl _ _)
    ⟨_,.refl,ended _ ?_ rfl rfl⟩))
  simp [Processor.exitStatus?,Line.instruction?,exitCall]

end

theorem main_runs {sizes : Sizes} {cells : List String} {state : UInt8}
    (loaded : Loaded sizes cells state host)
    (narrow : ∀ symbol ∈ cells, (textBytes symbol).length = 1)
    (tapeFits : cells.length ≤ sizes.tape) (bufferFits : drawnLength cells.length ≤ sizes.printBuffer)
    (registers : Registers) (stack : List Pushed) :
    host.Leads ⟨mainLines state.toNat cells (printerLines cells.length),registers,stack,[],[]⟩
      fun last => last.exitStatus? = some 0 ∧ last.stores = allStores state (cells.flatMap textBytes) ∧
        last.output = cells.flatMap textBytes ++ [10] ++
          drawnBytes (cells.flatMap textBytes) 0 ++ [10] := by
  obtain ⟨tape,bytes⟩ : ∃ tape, cells.flatMap textBytes = tape := ⟨_,rfl⟩
  have length : tape.length = cells.length := bytes ▸ narrow_length narrow
  have roomy : 2*(tape.length : Int)+2*(0 : Nat)+8 ≤ sizes.printBuffer := by
    unfold drawnLength at bufferFits
    omega
  have printer := loaded.printer
  rw [←length] at printer
  have headHeld : host.content (painted tapeLabel tape ++ [(⟨stateLabel,0⟩,state),(⟨headLabel,0⟩,0)])
      ⟨headLabel,0⟩ = 0 := by
    rw [content_painted_other (by simp [headLabel,tapeLabel])]
    rfl
  have fresh : List.lookup ⟨dataLabel "nl",0⟩
      (painted tapeLabel tape ++ [(⟨stateLabel,0⟩,state),(⟨headLabel,0⟩,0)]) = none := by
    rw [lookup_painted_other (by decide)]
    rfl
  have fresh' : (allStores state tape).lookup ⟨dataLabel "nl",0⟩ = none := by
    rw [allStores,lookup_painted_other (by decide),fresh]
  rw [bytes]
  refine .step (step?_storeAt loaded.headRoom 0 rfl) (.step (step?_storeAt loaded.stateRoom state rfl)
    (.step (step?_idle rfl _) (.after (lays_tape loaded.tapeRoom narrow tapeFits bytes)
      (.step (step?_set rfl _ _) ?_))))
  refine prints loaded.tapeRoom (by simp [length]) (stored_painted tapeLabel tape _) tapeLabel
    fun one _ => ?_
  refine prints_lineEnd loaded.lineEndRoom loaded.lineEnd fresh fun two n used => ?_
  refine .step (step?_call printer _) (.after (draws 0 loaded.bufferRoom loaded.tapeRoom
    loaded.headRoom loaded.padding roomy (by omega) (content_painted tapeLabel tape _) headHeld rfl
    used _) ?_)
  refine prints loaded.bufferRoom (by simp) (stored_painted bufferLabel _ _) bufferLabel fun three _ => ?_
  refine prints_lineEnd loaded.lineEndRoom loaded.lineEnd fresh' fun four _ _ => ?_
  exact exits 0 fun last ended stores output => ⟨ended,stores,output⟩

end Host

-- A run of the lines that prints the drawing of a tape's beginning and leaves with status zero. It
-- stores within its buffers only, and there is no place on the way where it could get stuck.
structure Prints (sizes : Sizes) (cells : List String) (host : Host) (first last : Processor) : Prop where
  reaches : host.Reaches first last
  ends : last.exitStatus? = some 0
  output : last.output = textBytes (String.join cells ++ "\n" ++ drawTape cells 0 ++ "\n")
  stores : ∀ spot byte, (spot,byte) ∈ last.stores → 0 ≤ spot.distance ∧
    (spot.label = tapeLabel → spot.distance < sizes.tape) ∧
    (spot.label = bufferLabel → spot.distance < sizes.printBuffer)
  passes : ∀ p, host.Reaches first p → host.Reaches p last

-- Whatever memory, registers and stack hold at first, and whatever system calls leave behind.
theorem compiled_draws {sizes : Sizes} {program : Program} {listing : Listing}
    (compiled : sizes.compile program = .ok listing) :
    ∃ run lines, program.runs = [run] ∧ read? listing.text = some lines ∧
      ∀ initial clobbered registers stack, ∃ first last,
        Host.start? ⟨lines,initial,clobbered⟩ registers stack = some first ∧
        Prints sizes run.tape ⟨lines,initial,clobbered⟩ first last := by
  obtain ⟨run,accepted,state,lines⟩ := compiled_lines compiled
  refine ⟨run,listing.lines,accepted.single,read?_compiled compiled,?_⟩
  intro initial clobbered registers stack
  have loaded : Loaded sizes run.tape state ⟨listing.lines,initial,clobbered⟩ := loaded_of lines
  obtain ⟨last,reaches,ends,stores,output⟩ := Host.main_runs loaded accepted.narrow_tape
    accepted.tapeFits accepted.bufferFits registers stack
  have begins : behind? "_start" listing.lines = some _ := loaded.start
  refine ⟨_,last,by rw [Host.start?,begins]; rfl,reaches,ends,?_,?_,?_⟩
  · rw [output,textBytes_append,textBytes_append,textBytes_append,textBytes_join,
      textBytes_drawTape accepted.narrow_tape accepted.filled]
    rfl
  · have length := narrow_length accepted.narrow_tape
    have tapeFits := accepted.tapeFits
    have bufferFits := accepted.bufferFits
    unfold drawnLength at bufferFits
    rw [stores]
    exact allStores_inside (by omega) (by omega)
  · intro p passed
    exact Host.reaches_last reaches (Host.step?_exit ends) passed

def snug : Program := .of [] [⟨["0"," ","#"],"A"⟩] []

theorem compiled_draws_snug : ∃ listing, (⟨3,20⟩ : Sizes).compile snug = .ok listing ∧
    ∃ lines, read? listing.text = some lines ∧ ∃ first last,
      Host.start? ⟨lines,fun _ => 0,fun _ => 0⟩ (fun _ => .number 0) [] = some first ∧
      Prints ⟨3,20⟩ ["0"," ","#"] ⟨lines,fun _ => 0,fun _ => 0⟩ first last ∧
      last.output = textBytes "0 #\n[ 0   # ]\n  ^\n\n" := by
  have accepts : ((⟨3,20⟩ : Sizes).compile snug).isOk = true := by decide +kernel
  cases compiled : (⟨3,20⟩ : Sizes).compile snug with
  | error cause =>
    rw [compiled] at accepts
    cases accepts
  | ok listing =>
    obtain ⟨run,lines,single,read,draws⟩ := compiled_draws compiled
    cases single
    obtain ⟨first,last,started,prints⟩ := draws (fun _ => 0) (fun _ => 0) (fun _ => .number 0) []
    exact ⟨listing,rfl,lines,read,first,last,started,prints,prints.output⟩

end TapeMachine.Assembly
