import Mathlib.Data.Finset.Lattice.Fold
import Mathlib.Order.Lattice.Nat
import TapeMachine.Proofs.Course

-- A machine whose tape goes on to the right without end, and the machine whose tape grows
-- beside it: they take the same steps, and the growing tape is the part of the endless one
-- that the head has been to.
namespace TapeMachine

structure Endless where
  cells : Nat → String
  head : Nat
  state : String
  steps : Nat
  halted : Bool

namespace Endless

def start (run : Run) (filled : run.tape ≠ []) : Endless :=
  ⟨fun place => run.tape.getD place (run.tape.getLast filled),0,run.state,0,false⟩

def step (program : Program) (machine : Endless) : Except MachineError (Rule × Endless) :=
  let symbol := machine.cells machine.head
  match program.rule? machine.state symbol with
  | none => .error (.undefined machine.state symbol)
  | some rule =>
    match rule.direction.beside? machine.head with
    | none => .error (.leftOfTape rule.next (machine.steps+1))
    | some head =>
      .ok (rule,⟨Function.update machine.cells machine.head rule.write,head,rule.next,
        machine.steps+1,program.halts rule.next⟩)

end Endless

def Endless.advance (program : Program) : Endless → Nat → Except MachineError Endless :=
  TapeMachine.advance Endless.halted (Endless.step program)

theorem Endless.advance_succ (program : Program) (machine : Endless) (count : Nat) :
    machine.advance program (count+1) = (machine.advance program count).bind fun reached =>
      if reached.halted then .ok reached else (reached.step program).map Prod.snd := rfl

inductive Together (related : α → β → Prop) : Except ε α → Except ε β → Prop where
  | succeed : related a b → Together related (.ok a) (.ok b)
  | fail : Together related (.error cause) (.error cause)

theorem Together.imp {related related' : α → β → Prop} {one : Except ε α} {other : Except ε β}
    (together : Together related one other) (weaker : ∀ a b, related a b → related' a b) :
    Together related' one other := by
  cases together with
  | succeed both => exact .succeed (weaker _ _ both)
  | fail => exact .fail

-- The place that a running machine's head stands at. A machine that has halted needs no cell
-- to stand on, and its head may be behind the last one.
def standing : Except MachineError Machine → Nat
  | .ok machine => if machine.halted then 0 else machine.head
  | .error _ => 0

def greatestHead (program : Program) (machine : Machine) (count : Nat) : Nat :=
  (Finset.range (count+1)).sup fun earlier => standing (machine.advance program earlier)

theorem greatestHead_succ (program : Program) (machine : Machine) (count : Nat) :
    greatestHead program machine (count+1) =
      max (greatestHead program machine count) (standing (machine.advance program (count+1))) := by
  rw [greatestHead,Finset.range_add_one,Finset.sup_insert,max_comm]
  rfl

structure Agrees (filler : String) (machine : Machine) (endless : Endless) : Prop where
  state : machine.state = endless.state
  head : machine.head = endless.head
  steps : machine.steps = endless.steps
  halted : machine.halted = endless.halted
  shown : ∀ place (inside : place < machine.tape.cells.length),
    machine.tape.cells[place] = endless.cells place
  beyond : ∀ place, machine.tape.cells.length ≤ place → endless.cells place = filler

structure Beside (filler : String) (machine : Machine) (endless : Endless) : Prop where
  state : machine.state = endless.state
  head : machine.head = endless.head
  steps : machine.steps = endless.steps
  halted : machine.halted = endless.halted
  cells : endless.cells = fun place => machine.tape.cells.getD place filler
  filler : machine.tape.filler = filler
  inside : machine.halted = false → machine.head < machine.tape.cells.length

theorem Beside.agrees {filler : String} {machine : Machine} {endless : Endless}
    (beside : Beside filler machine endless) : Agrees filler machine endless := by
  refine ⟨beside.state,beside.head,beside.steps,beside.halted,?_,?_⟩
  · intro place inside
    simp [beside.cells,inside]
  · intro place beyond
    simp [beside.cells,List.getElem?_eq_none beyond]

theorem Machine.Fresh.beside {run : Run} {machine : Machine} (fresh : Fresh run machine)
    (filled : run.tape ≠ []) :
    Beside (run.tape.getLast filled) machine (Endless.start run filled) := by
  have last : run.tape.getLast filled = machine.tape.filler :=
    Option.some.inj ((List.getLast?_eq_some_getLast filled).symm.trans fresh.filler)
  refine ⟨fresh.state,fresh.head,fresh.steps,fresh.running,?_,last.symm,fun _ => fresh.inside filled⟩
  rw [fresh.cells]
  rfl

theorem getD_set_append {cells : List String} {head : Nat} (inside : head < cells.length)
    (symbol filler : String) (grown : Prop) [Decidable grown] :
    (fun place => (cells.set head symbol ++ if grown then [filler] else []).getD place filler) =
      Function.update (fun place => cells.getD place filler) head symbol := by
  funext place
  rw [Function.update_apply]
  by_cases old : place < cells.length
  · rw [List.getD_eq_getElem?_getD,List.getElem?_append_left (by simpa using old),List.getElem?_set]
    by_cases here : head = place
    · simp [here,old]
    · simp [here,Ne.symm here]
  · have elsewhere : place ≠ head := by omega
    have behind : cells.length ≤ place := by omega
    rw [if_neg elsewhere,List.getD_eq_getElem?_getD,List.getElem?_append_right (by simpa using behind)]
    simp only [List.getD_eq_getElem?_getD,List.getElem?_eq_none behind,Option.getD_none]
    split
    · cases place - (cells.set head symbol).length <;> rfl
    · rfl

theorem applied_length {program : Program} {rule : Rule} {machine next : Machine}
    (applied : machine.Applied program rule next) (running : machine.halted = false) :
    next.tape.cells.length = max machine.tape.cells.length (1 + standing (.ok next)) := by
  have halted := applied.halted
  have inside := applied.inside
  have near : next.head ≤ machine.head+1 := by
    have beside := applied.head
    cases direction : rule.direction <;> cases head : machine.head <;>
      simp [Direction.beside?,direction,head] at beside <;> omega
  rw [running,Bool.or_false] at halted
  rw [applied.cells,List.length_append,List.length_set]
  cases halts : program.halts rule.next with
  | true => simp [standing,halted,halts]; omega
  | false =>
    by_cases grows : machine.tape.cells.length ≤ next.head
    · simp [standing,halted,halts,grows]; omega
    · simp [standing,halted,halts,grows]; omega

theorem applied_beside {program : Program} {rule : Rule} {filler : String}
    {machine next : Machine} {endless : Endless} (beside : Beside filler machine endless)
    (running : machine.halted = false) (applied : machine.Applied program rule next) :
    Beside filler next ⟨Function.update endless.cells endless.head rule.write,next.head,rule.next,
      endless.steps+1,program.halts rule.next⟩ := by
  have halted := applied.halted
  rw [running,Bool.or_false] at halted
  refine ⟨applied.state,rfl,?_,halted,?_,applied.filler.trans beside.filler,?_⟩
  · rw [applied.steps,beside.steps]
  · rw [applied.cells,beside.filler,getD_set_append applied.inside,← beside.cells,beside.head]
  · intro stillRunning
    have length := applied_length applied running
    simp [standing,stillRunning] at length
    omega

theorem step_together (program : Program) {filler : String} {machine : Machine}
    {endless : Endless} (beside : Beside filler machine endless) (running : machine.halted = false) :
    Together (fun next endless => Beside filler next.2 endless.2 ∧ next.1 = endless.1 ∧
        next.2.tape.cells.length = max machine.tape.cells.length (1 + standing (.ok next.2)))
      (machine.step program) (endless.step program) := by
  have inside := beside.inside running
  have symbol : endless.cells endless.head = machine.tape.cells[machine.head] := by
    rw [(beside.agrees).shown machine.head inside,beside.head]
  rw [Machine.step_inside program inside,Endless.step,symbol,← beside.state,← beside.head,
    ← beside.steps]
  cases program.rule? machine.state machine.tape.cells[machine.head] with
  | none => exact .fail
  | some rule =>
    cases target : rule.direction.beside? machine.head with
    | none =>
      simp only [Machine.apply_left program target,target]
      exact .fail
    | some head =>
      obtain ⟨next,done,applied⟩ := Machine.apply_inside program target inside
      have arrived : head = next.head := Option.some.inj (target.symm.trans applied.head)
      have after := applied_beside beside running applied
      rw [← beside.head,← beside.steps,← arrived] at after
      simp only [done,target]
      exact .succeed ⟨after,rfl,applied_length applied running⟩

-- The run lemma behind the refinement, with all that the induction carries.
theorem advance_together {program : Program} {run : Run} (filled : run.tape ≠ []) :
    ∃ machine, Machine.start run = .ok machine ∧ ∀ count,
      Together (fun reached endless => Beside (run.tape.getLast filled) reached endless ∧
          reached.tape.cells.length = max run.tape.length (1 + greatestHead program machine count))
        (machine.advance program count) ((Endless.start run filled).advance program count) := by
  obtain ⟨machine,fresh⟩ := Machine.fresh_of run filled
  refine ⟨machine,fresh.started,fun count => ?_⟩
  induction count with
  | zero =>
    refine .succeed ⟨fresh.beside filled,?_⟩
    have some := List.length_pos_iff.mpr filled
    simp [greatestHead,Machine.advance,advance,standing,fresh.head,fresh.cells]
    omega
  | succ count ih =>
    rw [greatestHead_succ,Machine.advance_succ,Endless.advance_succ]
    generalize machine.advance program count = before at ih ⊢
    generalize (Endless.start run filled).advance program count = endless at ih ⊢
    cases ih with
    | fail => exact .fail
    | @succeed reached endless previous =>
      obtain ⟨beside,length⟩ := previous
      simp only [Except.bind,← beside.halted]
      cases running : reached.halted with
      | true =>
        refine .succeed ⟨beside,?_⟩
        simpa [standing,running] using length
      | false =>
        have together := step_together program beside running
        generalize reached.step program = stepped at together ⊢
        generalize endless.step program = stepped' at together ⊢
        cases together with
        | fail => exact .fail
        | succeed next =>
          obtain ⟨after,_,grown⟩ := next
          refine .succeed ⟨after,?_⟩
          rw [grown,length]
          simp only [Except.map,Bool.false_eq_true,if_false]
          omega

theorem growing_refines_endless (program : Program) (run : Run) (filled : run.tape ≠ []) :
    ∃ machine, Machine.start run = .ok machine ∧ ∀ count,
      Together (fun reached endless => Agrees (run.tape.getLast filled) reached endless ∧
          reached.tape.cells.length = max run.tape.length (1 + greatestHead program machine count))
        (machine.advance program count) ((Endless.start run filled).advance program count) := by
  obtain ⟨machine,started,together⟩ := advance_together filled
  exact ⟨machine,started,fun count =>
    (together count).imp fun _ _ ⟨beside,length⟩ => ⟨beside.agrees,length⟩⟩

def lengthening : Program :=
  .of [⟨"s","a","x",.right,"s"⟩,⟨"s","b","y",.right,"t"⟩,⟨"t","b","z",.left,"HALT"⟩] [] []

theorem growing_refines_endless_grown : ["a","b"] ≠ [] ∧
    ∃ machine, Machine.start ⟨["a","b"],"s"⟩ = .ok machine ∧ ∀ count,
      Together (fun reached endless => Agrees "b" reached endless ∧
          reached.tape.cells.length = max 2 (1 + greatestHead lengthening machine count))
        (machine.advance lengthening count)
        ((Endless.start ⟨["a","b"],"s"⟩ (by simp)).advance lengthening count) :=
  ⟨by simp,growing_refines_endless lengthening ⟨["a","b"],"s"⟩ (by simp)⟩

example : (Machine.start ⟨["a","b"],"s"⟩).toOption.map (fun machine =>
      (machine.advance lengthening 3).map fun reached => (reached.tape.cells,reached.head,reached.halted)) =
    some (.ok (["x","y","z"],1,true)) := by
  decide

end TapeMachine
