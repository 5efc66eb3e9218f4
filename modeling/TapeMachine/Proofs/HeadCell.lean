import TapeMachine.CommandLine.Session
import TapeMachine.Proofs.Acceptance
import TapeMachine.Proofs.Configured
import TapeMachine.Proofs.Documents
import TapeMachine.Proofs.Trace

-- The places at which heads come to rest, against the byte that an assembled program has for
-- its head. A head may rest behind the last cell, so the longest tapes take it one place too far.
namespace TapeMachine

open Machine
open Assembly (Sizes Accepted)

def RestsAt (sizes : Sizes) (cells head : Nat) : Prop :=
  ∃ program listing run interpreter sink result, sizes.compile program = .ok listing ∧
    program.runs = [run] ∧ interpreter.program = program ∧
    Interpreter.ComesTo interpreter run sink (.ok result) ∧
    run.tape.length = cells ∧ result.cells.length = cells ∧ result.head = head

namespace Machine

theorem step_over {program : Program} {machine : Machine} {symbol : String} {rule : Rule}
    (read : machine.tape.cells[machine.head]? = some symbol)
    (found : program.rule? machine.state symbol = some rule) (onward : rule.direction = .right)
    (keeps : rule.write = symbol)
    (stays : program.halts rule.next = true ∨ machine.head+1 < machine.tape.cells.length) :
    ∃ after, machine.step program = .ok (rule,after) ∧ after.state = rule.next ∧
      after.head = machine.head+1 ∧ after.tape.cells = machine.tape.cells ∧
      after.halted = (program.halts rule.next || machine.halted) := by
  obtain ⟨inside,here⟩ := List.getElem?_eq_some_iff.mp read
  have beside : rule.direction.beside? machine.head = some (machine.head+1) := by
    rw [onward]
    rfl
  obtain ⟨after,done,applied⟩ := apply_inside program beside inside
  have head : after.head = machine.head+1 := Option.some.inj (applied.head.symm.trans beside)
  refine ⟨after,?_,applied.state,head,?_,applied.halted⟩
  · rw [step_inside program inside,here,found]
    simp only [done]
    rfl
  · have short : ¬(program.halts rule.next = false ∧ machine.tape.cells.length ≤ after.head) := by
      intro grows
      rcases stays with halts | within
      · exact Bool.false_ne_true (grows.1.symm.trans halts)
      · omega
    rw [applied.cells,if_neg short,List.append_nil,keeps,← here,List.set_getElem_self]

end Machine

def stride (count : Nat) : Run := ⟨List.replicate count "0" ++ ["1"],"A"⟩

def strider (count : Nat) : Program :=
  .of [⟨"A","0","0",.right,"A"⟩,⟨"A","1","1",.right,"H"⟩] [stride count] ["H"]

theorem strides {count ahead : Nat} {machine : Machine} (state : machine.state = "A")
    (running : machine.halted = false) (cells : machine.tape.cells = (stride count).tape)
    (left : machine.head + ahead = count) :
    ∃ moments last, Course (strider count) machine moments last ∧ last.halted = true ∧
      last.tape.cells = (stride count).tape ∧ last.head = count+1 := by
  induction ahead generalizing machine with
  | zero =>
    have read : machine.tape.cells[machine.head]? = some "1" := by
      rw [cells,stride,List.getElem?_append_right (by simp; omega)]
      simp [← left]
    have found : (strider count).rule? machine.state "1" = some ⟨"A","1","1",.right,"H"⟩ := by
      rw [state]
      rfl
    obtain ⟨after,stepped,_,head,same,halted⟩ := step_over read found rfl rfl (.inl rfl)
    exact ⟨_,after,.more running stepped .done,halted,same.trans cells,by omega⟩
  | succ ahead ih =>
    have before : machine.head < (List.replicate count "0").length := by
      rw [List.length_replicate]
      omega
    have read : machine.tape.cells[machine.head]? = some "0" := by
      rw [cells,stride,List.getElem?_append_left before,List.getElem?_replicate_of_lt (by omega)]
    have found : (strider count).rule? machine.state "0" = some ⟨"A","0","0",.right,"A"⟩ := by
      rw [state]
      rfl
    have within : machine.head+1 < machine.tape.cells.length := by
      rw [cells,stride,List.length_append,List.length_singleton]
      omega
    obtain ⟨after,stepped,state',head,same,halted⟩ := step_over read found rfl rfl (.inr within)
    obtain ⟨moments,last,course,rests⟩ := ih state' (halted.trans running) (same.trans cells) (by omega)
    exact ⟨_,last,.more running stepped course,rests⟩

theorem strider_accepted {sizes : Sizes} {count : Nat} (tapeFits : (count+1 : Int) ≤ sizes.tape)
    (bufferFits : 4*(count+1 : Int)+8 ≤ sizes.printBuffer) :
    Accepted sizes (strider count) (stride count) := by
  have length : (stride count).tape.length = count+1 := by simp [stride]
  have symbols : ∀ symbol ∈ (strider count).occurrences, symbol ∈ ["A","0","1","H"] := by
    intro symbol member
    rw [Assembly.occurrences_of_single rfl] at member
    rcases List.mem_append.mp member with inRules | inRun
    · have all : ∀ symbol ∈ ["A","0","0","A","A","1","1","H"], symbol ∈ ["A","0","1","H"] := by decide
      exact all symbol inRules
    · rcases List.mem_cons.mp inRun with rfl | inTape
      · exact List.mem_cons_self
      · rcases List.mem_append.mp inTape with zero | one
        · rw [List.eq_of_mem_replicate zero]
          decide
        · rw [List.mem_singleton.mp one]
          decide
  refine ⟨rfl,?_,?_,?_,?_⟩
  · intro symbol member
    have narrow : ∀ symbol ∈ ["A","0","1","H"], (Assembly.textBytes symbol).length = 1 := by decide
    exact narrow symbol (symbols symbol member)
  · simp [stride]
  · rw [length]
    exact_mod_cast tapeFits
  · rw [length,Assembly.drawnLength_eq]
    exact_mod_cast bufferFits

variable {sizes : Sizes} {cells head : Nat}

-- Every tape that is accepted at all lets some head come to rest behind its last cell.
theorem restsAt_end (filled : 0 < cells) (tapeFits : cells ≤ sizes.tape)
    (bufferFits : 4*(cells : Int)+8 ≤ sizes.printBuffer) (short : sizes.AreWritable) :
    RestsAt sizes cells cells := by
  obtain ⟨count,rfl⟩ := Nat.exists_eq_succ_of_ne_zero (Nat.pos_iff_ne_zero.mp filled)
  obtain ⟨listing,compiled⟩ := Assembly.compile_ok_of_accepted
    (strider_accepted (by exact_mod_cast tapeFits) (by exact_mod_cast bufferFits)) short
  obtain ⟨fresh,started⟩ := fresh_of (stride count) (by simp [stride])
  obtain ⟨moments,last,course,halted,same,behind⟩ := strides started.state started.running started.cells
    (by rw [started.head,Nat.zero_add])
  have length : (stride count).tape.length = count+1 := by simp [stride]
  have comes : Interpreter.ComesTo ⟨strider count,none,false,false⟩ (stride count) _ (.ok _) :=
    (Interpreter.returns_iff_halted started).mpr ⟨moments,last,course,halted,by simp,rfl,rfl⟩
  exact ⟨_,listing,_,_,_,_,compiled,rfl,rfl,comes,length,by rw [same,length],behind⟩

theorem RestsAt.bounded (rests : RestsAt sizes cells head) :
    head ≤ cells ∧ cells ≤ sizes.tape ∧ 4*(cells : Int)+8 ≤ sizes.printBuffer ∧ sizes.AreWritable := by
  obtain ⟨program,listing,run,interpreter,sink,result,compiled,single,_,comes,rfl,length,rfl⟩ := rests
  obtain ⟨only,accepted,_⟩ := Assembly.compiled_lines compiled
  cases single.symm.trans accepted.single
  have bufferFits := accepted.bufferFits
  rw [Assembly.drawnLength_eq] at bufferFits
  refine ⟨?_,accepted.tapeFits,bufferFits,?_⟩
  · obtain ⟨fresh,started⟩ := fresh_of run accepted.filled
    obtain ⟨moments,last,course,_,_,_,rfl⟩ := (Interpreter.returns_iff_halted started).mp comes
    have near := course.stands (by rw [started.head]; exact Nat.zero_le _)
    exact near.trans (Nat.le_of_eq length)
  · refine Classical.byContradiction fun long => ?_
    rw [Assembly.compile_error_of_accepted accepted long] at compiled
    cases compiled

section

variable {reader : Yaml.Reader} {name : String} {path : Path} {content : Except FileError (List UInt8)}
  {settings : Settings}

theorem sizes_of_load (loaded : Settings.load reader name path content = .ok settings) :
    ∃ sizes, CommandLine.sizesOf settings = .ok sizes ∧ sizes.tape.natAbs ≤ 256 := by
  obtain ⟨_,value,_,_,taken⟩ := Settings.read_of_load loaded
  have sound := Settings.sound_of_ofValue taken
  obtain ⟨size,sized,_,most⟩ := sound.tapeSize
  obtain ⟨length,long,_⟩ := sound.printBufferSize
  refine ⟨⟨size,length⟩,?_,by dsimp only; omega⟩
  simp only [CommandLine.sizesOf,Settings.whole,Settings.get,sized,long]
  rfl

theorem settings_of_sizes (found : ((Settings.load reader name path content).toOption.bind fun settings =>
      (CommandLine.sizesOf settings).toOption) = some sizes) :
    ∃ settings, Settings.load reader name path content = .ok settings ∧
      CommandLine.sizesOf settings = .ok sizes := by
  obtain ⟨settings,loaded,sized⟩ := Option.bind_eq_some_iff.mp found
  have given : Settings.load reader name path content = .ok settings := by
    cases load : Settings.load reader name path content with
    | error cause => simp [load,Except.toOption] at loaded
    | ok other =>
      rw [load] at loaded
      cases loaded
      rfl
  cases used : CommandLine.sizesOf settings with
  | error cause => simp [used,Except.toOption] at sized
  | ok other =>
    rw [used] at sized
    cases sized
    exact ⟨settings,given,used⟩

-- The head of an accepted program's tape comes to rest within a byte, except where the tape has
-- as many cells as a byte has values. Settings that leave room for such a tape let it rest just
-- one place beyond.
theorem resting_heads (loaded : Settings.load reader name path content = .ok settings) :
    ∃ sizes, CommandLine.sizesOf settings = .ok sizes ∧
      (∀ cells head, RestsAt sizes cells head → head ≤ 255 ∨ head = 256 ∧ cells = 256) ∧
      ((∀ cells head, RestsAt sizes cells head → head ≤ 255) ↔
        ¬(sizes.tape = 256 ∧ 1032 ≤ sizes.printBuffer ∧ Text.isWritable sizes.printBuffer = true)) := by
  obtain ⟨sizes,sized,most⟩ := sizes_of_load loaded
  have short : Text.isWritable sizes.tape = true := by
    have enough : 256 < Nat.pow 10 Text.longestNumeral := by decide +kernel
    exact decide_eq_true (Nat.lt_of_le_of_lt most enough)
  refine ⟨sizes,sized,?_,?_,?_⟩
  · intro cells head rests
    obtain ⟨near,tapeFits,_⟩ := rests.bounded
    omega
  · intro all roomy
    obtain ⟨tape,buffer,written⟩ := roomy
    have rests : RestsAt sizes 256 256 := restsAt_end (by decide) (by omega) (by omega) ⟨short,written⟩
    have within := all 256 256 rests
    omega
  · intro tight cells head rests
    obtain ⟨near,tapeFits,bufferFits,_,written⟩ := rests.bounded
    refine Nat.le_of_not_lt fun far => tight ⟨by omega,by omega,written⟩

end

theorem resting_heads_usual : ∃ settings,
    Settings.load Yaml.shallowReader "turir.yaml" (.of "turir.yaml") (.ok []) = .ok settings ∧
    CommandLine.sizesOf settings = .ok {} ∧ ∀ cells head, RestsAt {} cells head → head ≤ 255 := by
  obtain ⟨settings,loaded,usual⟩ : ∃ settings,
      Settings.load Yaml.shallowReader "turir.yaml" (.of "turir.yaml") (.ok []) = .ok settings ∧
        CommandLine.sizesOf settings = .ok {} := settings_of_sizes (by decide +kernel)
  obtain ⟨sizes,sized,_,fits⟩ := resting_heads loaded
  cases usual.symm.trans sized
  exact ⟨settings,loaded,usual,fits.mpr (by decide)⟩

def roomySettings : List UInt8 :=
  Assembly.textBytes "compiler: \x7btape_size: 256, print_buffer_size: 1032\x7d\n"

theorem head_past_byte : ∃ settings,
    Settings.load Yaml.shallowReader "turir.yaml" (.of "turir.yaml") (.ok roomySettings) = .ok settings ∧
      CommandLine.sizesOf settings = .ok ⟨256,1032⟩ ∧ RestsAt ⟨256,1032⟩ 256 256 := by
  obtain ⟨settings,loaded,sized⟩ : ∃ settings,
      Settings.load Yaml.shallowReader "turir.yaml" (.of "turir.yaml") (.ok roomySettings) = .ok settings ∧
        CommandLine.sizesOf settings = .ok ⟨256,1032⟩ := settings_of_sizes (by decide +kernel)
  have short : Sizes.AreWritable ⟨256,1032⟩ := ⟨by decide +kernel,by decide +kernel⟩
  exact ⟨settings,loaded,sized,restsAt_end (by decide) (by decide) (by decide) short⟩

end TapeMachine
