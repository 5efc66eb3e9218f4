import Mathlib.Data.List.Induction
import Mathlib.Logic.Function.Basic
import Mathlib.Logic.Relation
import TapeMachine.Assembly.Listing

-- The plain meaning of a listing: what its instructions do to registers, stack and memory, and
-- what reaches the output. There is no step where an instruction is out of its bounds.
namespace TapeMachine.Assembly

structure Spot where
  label : String
  distance : Int
  deriving DecidableEq, Repr

inductive Word where
  | number (n : Int)
  | address (label : String)
  deriving DecidableEq, Repr

inductive Pushed where
  | word (word : Word)
  | behind (code : List Line)
  deriving DecidableEq, Repr

abbrev Registers := Register → Word

structure Processor where
  code : List Line
  registers : Registers
  stack : List Pushed
  stores : List (Spot × UInt8)
  output : List UInt8

-- What a processor finds: the listing, what memory happens to hold at first, and what a system
-- call leaves in the counter, which is where it comes back to.
structure Host where
  lines : List Line
  initial : Spot → UInt8
  clobbered : List Line → Int

namespace Line

def instruction? : Line → Option Instruction
  | code instruction => some instruction
  | remarked instruction _ => some instruction
  | _ => none

def isIdle : Line → Bool
  | empty => true
  | mark _ => true
  | comment _ => true
  | _ => false

def bytes? (label : String) : Line → Option (List UInt8)
  | data named bytes => if named = label then some bytes else none
  | _ => none

def room? (label : String) : Line → Option Int
  | data named bytes => if named = label then some bytes.length else none
  | reserve named size => if named = label then some size else none
  | _ => none

end Line

def behind? (label : String) (lines : List Line) : Option (List Line) :=
  match lines.dropWhile (· ≠ .mark label) with
  | [] => none
  | _ :: behind => some behind

def room? (label : String) (lines : List Line) : Option Int := lines.findSome? (Line.room? label)

def byte? (value : Int) : Option UInt8 :=
  if 0 ≤ value ∧ value < 256 then some (UInt8.ofNat value.toNat) else none

-- The low byte of rax is no register of its own: it is reached through rax only.
def Register.isWhole : Register → Bool
  | al => false
  | _ => true

namespace Processor

def number? (register : Register) (p : Processor) : Option Int :=
  match p.registers register with
  | .number n => if register.isWhole then some n else none
  | .address _ => none

def low? (p : Processor) : Option UInt8 := (p.number? .rax).bind fun n => byte? (n % 256)

def put? (register : Register) (word : Word) (p : Processor) : Option Processor :=
  if register.isWhole then some { p with registers := Function.update p.registers register word }
  else none

def spot? (address : Address) (p : Processor) : Option Spot :=
  match address with
  | .at label => some ⟨label,0⟩
  | .plus label distance => some ⟨label,distance⟩
  | .indexed label register => (p.number? register).map (⟨label,·⟩)

def exitStatus? (p : Processor) : Option Int :=
  match p.code.head?.bind Line.instruction?,p.registers .rax,p.registers .rdi with
  | some .syscall,.number call,.number status => if call = 60 then some status else none
  | _,_,_ => none

end Processor

namespace Host

def isInside (host : Host) (spot : Spot) : Bool :=
  (room? spot.label host.lines).any fun size => 0 ≤ spot.distance ∧ spot.distance < size

def declared? (host : Host) (spot : Spot) : Option UInt8 :=
  if 0 ≤ spot.distance then
    (host.lines.findSome? (Line.bytes? spot.label)).bind (·[spot.distance.toNat]?)
  else none

def stored? (host : Host) (stores : List (Spot × UInt8)) (spot : Spot) : Option UInt8 :=
  (stores.lookup spot).or (host.declared? spot)

def content (host : Host) (stores : List (Spot × UInt8)) (spot : Spot) : UInt8 :=
  (host.stored? stores spot).getD (host.initial spot)

def load? (host : Host) (spot : Spot) (p : Processor) : Option UInt8 :=
  if host.isInside spot then some (host.content p.stores spot) else none

def store? (host : Host) (spot : Spot) (byte : UInt8) (p : Processor) : Option Processor :=
  if host.isInside spot then some { p with stores := (spot,byte) :: p.stores } else none

def goTo? (host : Host) (label : String) (p : Processor) : Option Processor :=
  (behind? label host.lines).map fun code => { p with code }

def write? (host : Host) (p : Processor) : Option Processor :=
  match p.registers .rax,p.registers .rdi,p.registers .rsi,p.registers .rdx with
  | .number call,.number file,.address label,.number count =>
    if call = 1 ∧ file = 1 ∧ 0 ≤ count then
      ((List.range count.toNat).mapM fun i : Nat => host.stored? p.stores ⟨label,i⟩).map fun bytes =>
        { p with
          registers := Function.update (Function.update p.registers .rax (.number count))
            .rcx (.number (host.clobbered p.code))
          output := p.output ++ bytes }
    else none
  | _,_,_,_ => none

def perform? (host : Host) (instruction : Instruction) (p : Processor) : Option Processor :=
  match instruction with
  | .storeByte address value => do host.store? (← p.spot? address) (← byte? value) p
  | .storeLow address => do host.store? (← p.spot? address) (← p.low?) p
  | .loadLow address => do
    let byte ← host.load? (← p.spot? address) p
    let n ← p.number? .rax
    p.put? .rax (.number (n - n % 256 + byte.toNat))
  | .loadByte register address => do
    let byte ← host.load? (← p.spot? address) p
    p.put? register (.number byte.toNat)
  | .set register value => p.put? register (.number value)
  | .point register label =>
    if (room? label host.lines).isSome then p.put? register (.address label) else none
  | .scale register factor summand => do
    p.put? register (.number ((← p.number? register)*factor+summand))
  | .increment register => do p.put? register (.number ((← p.number? register)+1))
  | .loop label => do
    let n ← p.number? .rcx
    let counted ← p.put? .rcx (.number (n-1))
    if n-1 = 0 then some counted else host.goTo? label counted
  | .push register =>
    if register.isWhole then some { p with stack := .word (p.registers register) :: p.stack }
    else none
  | .pop register =>
    match p.stack with
    | .word word :: stack => { p with stack }.put? register word
    | _ => none
  | .call label => host.goTo? label { p with stack := .behind p.code :: p.stack }
  | .ret =>
    match p.stack with
    | .behind code :: stack => some { p with code,stack }
    | _ => none
  | .syscall => host.write? p

-- No step is left at the end of the code, over lines that are no code, where an instruction is
-- out of its bounds, and where the program ends.
def step? (host : Host) (p : Processor) : Option Processor :=
  match p.code with
  | [] => none
  | line :: code =>
    match line.instruction? with
    | some instruction => host.perform? instruction { p with code }
    | none => if line.isIdle then some { p with code } else none

def Reaches (host : Host) : Processor → Processor → Prop :=
  Relation.ReflTransGen fun p q => host.step? p = some q

def start? (host : Host) (registers : Registers) (stack : List Pushed) : Option Processor :=
  (behind? "_start" host.lines).map fun code => ⟨code,registers,stack,[],[]⟩

section
variable {host : Host} {registers : Registers} {stack : List Pushed} {output : List UInt8}
  {code : List Line}

theorem step?_code (host : Host) (instruction : Instruction) (code : List Line)
    (registers : Registers) (stack : List Pushed) (stores : List (Spot × UInt8)) (output : List UInt8) :
    host.step? ⟨.code instruction :: code,registers,stack,stores,output⟩ =
      host.perform? instruction ⟨code,registers,stack,stores,output⟩ := rfl

theorem step?_idle {line : Line} (idle : line.isIdle = true) (stores : List (Spot × UInt8)) :
    host.step? ⟨line :: code,registers,stack,stores,output⟩ =
      some ⟨code,registers,stack,stores,output⟩ := by
  cases line <;> simp_all [Line.isIdle,step?,Line.instruction?]

theorem step?_push {register : Register} (whole : register.isWhole = true)
    (stores : List (Spot × UInt8)) :
    host.step? ⟨.code (.push register) :: code,registers,stack,stores,output⟩ =
      some ⟨code,registers,.word (registers register) :: stack,stores,output⟩ := by
  simp [step?_code,perform?,whole]

theorem step?_pop {register : Register} (whole : register.isWhole = true) (word : Word)
    (stores : List (Spot × UInt8)) :
    host.step? ⟨.code (.pop register) :: code,registers,.word word :: stack,stores,output⟩ =
      some ⟨code,Function.update registers register word,stack,stores,output⟩ := by
  simp [step?_code,perform?,Processor.put?,whole]

theorem step?_ret (back : List Line) (stores : List (Spot × UInt8)) :
    host.step? ⟨.code .ret :: code,registers,.behind back :: stack,stores,output⟩ =
      some ⟨back,registers,stack,stores,output⟩ := rfl

theorem step?_set {register : Register} (whole : register.isWhole = true) (value : Int)
    (stores : List (Spot × UInt8)) :
    host.step? ⟨.code (.set register value) :: code,registers,stack,stores,output⟩ =
      some ⟨code,Function.update registers register (.number value),stack,stores,output⟩ := by
  simp [step?_code,perform?,Processor.put?,whole]

theorem step?_scale {register : Register} (whole : register.isWhole = true) {n : Int}
    (holds : registers register = .number n) (factor summand : Nat) (stores : List (Spot × UInt8)) :
    host.step? ⟨.code (.scale register factor summand) :: code,registers,stack,stores,output⟩ =
      some ⟨code,Function.update registers register (.number (n*factor+summand)),stack,stores,output⟩ := by
  simp [step?_code,perform?,Processor.number?,Processor.put?,whole,holds]

theorem step?_loadByte {register : Register} (whole : register.isWhole = true) {label : String}
    {byte : UInt8} {stores : List (Spot × UInt8)} (inside : host.isInside ⟨label,0⟩ = true)
    (holds : host.content stores ⟨label,0⟩ = byte) :
    host.step? ⟨.code (.loadByte register (.at label)) :: code,registers,stack,stores,output⟩ =
      some ⟨code,Function.update registers register (.number byte.toNat),stack,stores,output⟩ := by
  simp [step?_code,perform?,Processor.spot?,load?,Processor.put?,whole,inside,holds]

theorem step?_point {label : String} {size : Int} (room : room? label host.lines = some size)
    {register : Register} (whole : register.isWhole = true) (stores : List (Spot × UInt8)) :
    host.step? ⟨.code (.point register label) :: code,registers,stack,stores,output⟩ =
      some ⟨code,Function.update registers register (.address label),stack,stores,output⟩ := by
  simp [step?_code,perform?,Processor.put?,room,whole]

theorem step?_call {label : String} {target : List Line}
    (found : behind? label host.lines = some target) (stores : List (Spot × UInt8)) :
    host.step? ⟨.code (.call label) :: code,registers,stack,stores,output⟩ =
      some ⟨target,registers,.behind code :: stack,stores,output⟩ := by
  simp [step?_code,perform?,goTo?,found]

theorem mapM_range {f : Nat → Option UInt8} {bytes : List UInt8}
    (all : ∀ i < bytes.length, f i = bytes[i]?) : (List.range bytes.length).mapM f = some bytes := by
  induction bytes using List.reverseRecOn with
  | nil => rfl
  | append_singleton bytes byte ih =>
    have first : (List.range bytes.length).mapM f = some bytes := ih fun i inside => by
      rw [all i (by simp; omega),List.getElem?_append_left inside]
    have last : f bytes.length = some byte := by rw [all bytes.length (by simp)]; simp
    rw [List.length_append,List.length_singleton,List.range_succ,List.mapM_append,first]
    simp [last]

theorem step?_write {label : String} {bytes : List UInt8} {stores : List (Spot × UInt8)}
    (call : registers .rax = .number 1) (file : registers .rdi = .number 1)
    (source : registers .rsi = .address label) (count : registers .rdx = .number bytes.length)
    (stored : ∀ i < bytes.length, host.stored? stores ⟨label,i⟩ = bytes[i]?) :
    host.step? ⟨.code .syscall :: code,registers,stack,stores,output⟩ =
      some ⟨code,Function.update (Function.update registers .rax (.number bytes.length)) .rcx
        (.number (host.clobbered code)),stack,stores,output ++ bytes⟩ := by
  rw [step?_code]
  simp only [perform?,write?,call,file,source,count]
  simp [mapM_range stored]

end

theorem step?_exit {host : Host} {p : Processor} {status : Int}
    (ends : p.exitStatus? = some status) : host.step? p = none := by
  obtain ⟨code,registers,stack,stores,output⟩ := p
  cases code with
  | nil => rfl
  | cons line code =>
    unfold Processor.exitStatus? at ends
    dsimp only at ends
    split at ends
    · rename_i call status' found use _
      split at ends
      · rename_i leaving
        subst leaving
        have instruction : line.instruction? = some .syscall := by simpa using found
        simp only [step?,instruction,perform?,write?,use]
        split
        · rename_i writes _ _ _
          cases writes
          simp
        · rfl
      · cases ends
    · cases ends

theorem reaches_either {host : Host} {first p q : Processor} (one : host.Reaches first p)
    (other : host.Reaches first q) : host.Reaches p q ∨ host.Reaches q p := by
  have unique : Relator.RightUnique fun p q => host.step? p = some q := by
    intro p q r one other
    exact Option.some.inj (one.symm.trans other)
  exact Relation.ReflTransGen.total_of_right_unique unique one other

theorem reaches_last {host : Host} {first last p : Processor} (all : host.Reaches first last)
    (ended : host.step? last = none) (passed : host.Reaches first p) : host.Reaches p last := by
  rcases reaches_either passed all with later | earlier
  · exact later
  · rcases Relation.ReflTransGen.cases_head earlier with same | ⟨next,step,_⟩
    · exact same ▸ .refl
    · rw [ended] at step
      cases step

def Leads (host : Host) (p : Processor) (holds : Processor → Prop) : Prop :=
  ∃ last, host.Reaches p last ∧ holds last

theorem Leads.after {host : Host} {p q : Processor} {holds : Processor → Prop} (reaches : host.Reaches p q)
    (later : host.Leads q holds) : host.Leads p holds := by
  obtain ⟨last,rest,held⟩ := later
  exact ⟨last,reaches.trans rest,held⟩

theorem Leads.step {host : Host} {p q : Processor} {holds : Processor → Prop} (step : host.step? p = some q)
    (later : host.Leads q holds) : host.Leads p holds := .after (.single step) later

end Host

end TapeMachine.Assembly
