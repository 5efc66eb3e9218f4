import TapeMachine.Machine.Operation
import TapeMachine.Proofs.Stepping

-- The machine as variables that are assigned one after the other. Here a failure undoes nothing
-- and an index may be negative, so that nothing about either holds by the way in which it is
-- written down.
namespace TapeMachine

structure Registers where
  tape : Tape
  head : Int
  state : String
  steps : Nat
  halted : Bool

abbrev Assigns := EStateM MachineError Registers

namespace Registers

def symbol : Assigns String := do
  let registers ← get
  match registers.tape.read registers.head with
  | .ok symbol => return symbol
  | .error _ => throw .offTape

def lookup (program : Program) : Assigns Rule := do
  let symbol ← symbol
  let registers ← get
  match program.rule? registers.state symbol with
  | some rule => return rule
  | none => throw (.undefined registers.state symbol)

def write (symbol : String) : Assigns Unit := do
  let registers ← get
  match registers.tape.write registers.head symbol with
  | .ok tape => set { registers with tape := tape }
  | .error _ => throw .offTape

def enter (program : Program) (rule : Rule) (head : Int) : Assigns Unit := do
  modify fun registers => { registers with state := rule.next }
  modify fun registers => { registers with steps := registers.steps+1 }
  modify fun registers => { registers with head := head }
  let registers ← get
  if program.halts registers.state then set { registers with halted := true }
  else set { registers with tape := registers.tape.reach registers.head }

def apply (program : Program) (rule : Rule) : Assigns Unit := do
  let registers ← get
  let head := registers.head + rule.direction.offset
  if head < 0 then throw (.leftOfTape rule.next (registers.steps+1))
  else do
    write rule.write
    enter program rule head

def step (program : Program) : Assigns Rule := do
  let rule ← lookup program
  apply program rule
  return rule

open Machine in
def perform (program : Program) : Operation → Assigns Found
  | .step => .rule <$> step program
  | .lookup => .rule <$> lookup program
  | .symbol => .symbol <$> symbol
  | .apply rule => (fun _ => .nothing) <$> apply program rule

def outcome : EStateM.Result ε σ α → Except ε α × σ
  | .ok found after => (.ok found,after)
  | .error cause after => (.error cause,after)

open Machine in
def performAll (program : Program) :
    List Operation → Registers → List (Except MachineError Found × Registers)
  | [],_ => []
  | operation :: operations,registers =>
    let found := outcome (perform program operation registers)
    found :: performAll program operations found.2

theorem bind_ok {first : Assigns α} {later : α → Assigns β} {before after : Registers} {a : α}
    (done : first before = .ok a after) : (first >>= later) before = later a after := by
  show EStateM.bind first later before = _
  simp [EStateM.bind,done]

theorem bind_error {first : Assigns α} {later : α → Assigns β} {before after : Registers}
    {cause : MachineError} (failed : first before = .error cause after) :
    (first >>= later) before = .error cause after := by
  show EStateM.bind first later before = _
  simp [EStateM.bind,failed]

theorem get_bind (later : Registers → Assigns β) (before : Registers) :
    (get >>= later) before = later before before := rfl

theorem modify_bind (change : Registers → Registers) (later : PUnit → Assigns β) (before : Registers) :
    ((modify change : Assigns PUnit) >>= later) before = later ⟨⟩ (change before) := rfl

theorem enter_eq (program : Program) (rule : Rule) (head : Int) (registers : Registers) :
    enter program rule head registers = .ok ()
      ⟨if program.halts rule.next then registers.tape else registers.tape.reach head,head,rule.next,
        registers.steps+1,program.halts rule.next || registers.halted⟩ := by
  rw [enter,modify_bind,modify_bind,modify_bind,get_bind]
  dsimp only
  cases program.halts rule.next <;> rfl

end Registers

theorem Direction.beside?_eq_none_iff {direction : Direction} {place : Nat} :
    direction.beside? place = none ↔ (place : Int) + direction.offset < 0 := by
  cases direction with
  | left =>
    cases place with
    | zero => simp [Direction.beside?,Direction.offset]
    | succ place =>
      simp only [Direction.beside?,Direction.offset,reduceCtorEq,false_iff]
      omega
  | right =>
    simp only [Direction.beside?,Direction.offset,reduceCtorEq,false_iff]
    omega

theorem Direction.offset_of_beside? {direction : Direction} {place target : Nat}
    (beside : direction.beside? place = some target) : (place : Int) + direction.offset = target := by
  cases direction <;> cases place <;> simp [Direction.beside?,Direction.offset] at beside ⊢ <;> omega

theorem Tape.place?_ofNat (tape : Tape) (place : Nat) :
    tape.place? place = if place < tape.cells.length then some place else none := by
  have counted : ¬ (place : Int) < 0 := by omega
  simp [Tape.place?,counted]

namespace Machine

def registers (machine : Machine) : Registers :=
  ⟨machine.tape,machine.head,machine.state,machine.steps,machine.halted⟩

def assigned (machine : Machine) :
    Except MachineError (α × Machine) → EStateM.Result MachineError Registers α
  | .ok (found,after) => .ok found after.registers
  | .error cause => .error cause machine.registers

theorem outcome_map {assigns : Assigns α} {machine : Machine}
    {found : Except MachineError (α × Machine)} (tell : α → Found)
    (agrees : assigns machine.registers = machine.assigned found) :
    Registers.outcome ((tell <$> assigns) machine.registers) =
      Registers.outcome (machine.assigned (found.map fun (a,after) => (tell a,after))) := by
  show Registers.outcome (EStateM.map tell assigns machine.registers) = _
  cases found <;> simp [EStateM.map,agrees,assigned,Except.map]

theorem symbol_registers (machine : Machine) : Registers.symbol machine.registers =
    machine.assigned (machine.symbol.map (·,machine)) := by
  have read : machine.registers.tape.read machine.registers.head = machine.headed.read :=
    (Tape.Headed.read_eq _).symm
  rw [Registers.symbol,Registers.get_bind,read,symbol]
  cases machine.headed.read <;> rfl

theorem lookup_registers (program : Program) (machine : Machine) :
    Registers.lookup program machine.registers =
      machine.assigned ((machine.lookup program).map (·,machine)) := by
  unfold Registers.lookup lookup
  have read := symbol_registers machine
  cases found : machine.symbol with
  | error cause =>
    rw [found] at read
    exact Registers.bind_error read
  | ok symbol =>
    rw [found] at read
    rw [Registers.bind_ok read]
    rw [Registers.get_bind]
    simp only [registers]
    cases program.rule? machine.state symbol <;> rfl

theorem write_registers (machine : Machine) (symbol : String) :
    Registers.write symbol machine.registers =
      if machine.head < machine.tape.cells.length then
        .ok () ⟨⟨machine.tape.cells.set machine.head symbol,machine.tape.filler⟩,machine.head,
          machine.state,machine.steps,machine.halted⟩
      else .error .offTape machine.registers := by
  rw [Registers.write,Registers.get_bind]
  simp only [registers,Tape.write,Tape.place?_ofNat]
  by_cases inside : machine.head < machine.tape.cells.length
  · simp only [inside,if_true]
    rfl
  · simp only [inside,if_false]
    rfl

theorem Applied.registers {program : Program} {rule : Rule} {machine next : Machine}
    (applied : Applied program rule machine next) : next.registers =
      ⟨⟨machine.tape.cells.set machine.head rule.write ++
          if program.halts rule.next = false ∧ machine.tape.cells.length ≤ next.head
            then [machine.tape.filler] else [],machine.tape.filler⟩,
        next.head,rule.next,machine.steps+1,program.halts rule.next || machine.halted⟩ := by
  have tape : next.tape = ⟨next.tape.cells,next.tape.filler⟩ := rfl
  simp only [Machine.registers]
  rw [tape,applied.cells,applied.filler,applied.state,applied.steps,applied.halted]

theorem apply_registers (program : Program) (rule : Rule) (machine : Machine) :
    Registers.apply program rule machine.registers =
      machine.assigned ((machine.apply program rule).map ((),·)) := by
  rw [Registers.apply,Registers.get_bind]
  cases target : rule.direction.beside? machine.head with
  | none =>
    have left : machine.registers.head + rule.direction.offset < 0 :=
      Direction.beside?_eq_none_iff.mp target
    rw [apply_left program target,if_pos left]
    rfl
  | some place =>
    have moved : machine.registers.head + rule.direction.offset = place :=
      Direction.offset_of_beside? target
    have right : ¬ (place : Int) < 0 := by omega
    have wrote := write_registers machine rule.write
    rw [moved,if_neg right]
    by_cases inside : machine.head < machine.tape.cells.length
    · obtain ⟨next,done,applied⟩ := apply_inside program target inside
      have arrived : place = next.head := Option.some.inj (target.symm.trans applied.head)
      rw [if_pos inside] at wrote
      rw [Registers.bind_ok wrote,done,arrived,Registers.enter_eq]
      show _ = EStateM.Result.ok () next.registers
      rw [applied.registers]
      cases halts : program.halts rule.next with
      | true => simp
      | false =>
        by_cases grows : machine.tape.cells.length ≤ next.head
        · simp [Tape.reach,grows]
        · simp [Tape.reach,grows]
    · rw [if_neg inside] at wrote
      rw [apply_outside program target (Nat.le_of_not_lt inside),Registers.bind_error wrote]
      rfl

theorem step_registers (program : Program) (machine : Machine) :
    Registers.step program machine.registers = machine.assigned (machine.step program) := by
  unfold Registers.step step
  have looked := lookup_registers program machine
  cases found : machine.lookup program with
  | error cause =>
    rw [found] at looked
    exact Registers.bind_error looked
  | ok rule =>
    rw [found] at looked
    rw [Registers.bind_ok looked]
    have entered := apply_registers program rule machine
    cases done : machine.apply program rule with
    | error cause =>
      rw [done] at entered
      simp only [done]
      exact Registers.bind_error entered
    | ok next =>
      rw [done] at entered
      simp only [done]
      exact Registers.bind_ok entered

theorem perform_registers (program : Program) (operation : Operation) (machine : Machine) :
    Registers.outcome (Registers.perform program operation machine.registers) =
      ((machine.perform program operation).1,(machine.perform program operation).2.registers) := by
  cases operation with
  | step =>
    refine (outcome_map .rule (step_registers program machine)).trans ?_
    unfold perform
    cases machine.step program <;> rfl
  | lookup =>
    refine (outcome_map .rule (lookup_registers program machine)).trans ?_
    unfold perform
    cases machine.lookup program <;> rfl
  | symbol =>
    refine (outcome_map .symbol (symbol_registers machine)).trans ?_
    unfold perform
    cases machine.symbol <;> rfl
  | apply rule =>
    refine (outcome_map (fun _ => .nothing) (apply_registers program rule machine)).trans ?_
    simp only [perform]
    cases machine.apply program rule <;> rfl

theorem performAll_registers (program : Program) (operations : List Operation) (machine : Machine) :
    Registers.performAll program operations machine.registers =
      (machine.performAll program operations).map fun (found,after) => (found,after.registers) := by
  induction operations generalizing machine with
  | nil => rfl
  | cons operation operations ih =>
    simp only [Registers.performAll,performAll,List.map_cons,perform_registers,ih]

end Machine

end TapeMachine
