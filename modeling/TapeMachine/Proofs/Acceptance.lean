import TapeMachine.Proofs.Assembled

-- Which programs have an assembly, and what becomes of all others. What a program must meet is
-- judged in a fixed order, and the first thing that it misses is the one that is named. Past
-- that, only a size that cannot be written stands in the way.
namespace TapeMachine.Assembly

inductive Violates (sizes : Sizes) (program : Program) : Refusal → Prop where
  | runCount : program.runs.length ≠ 1 → Violates sizes program (.runCount program.runs.length)
  | wideSymbol {run : Run} {before after : List String} {symbol : String} :
      program.runs = [run] →
      program.rules.flatMap (fun rule => [rule.state,rule.read,rule.write,rule.next]) ++
        run.state :: run.tape = before ++ symbol :: after →
      (∀ earlier ∈ before, (textBytes earlier).length = 1) → (textBytes symbol).length ≠ 1 →
      Violates sizes program (.wideSymbol symbol)
  | noTape {run : Run} : program.runs = [run] →
      (∀ symbol ∈ program.occurrences, (textBytes symbol).length = 1) → run.tape = [] →
      Violates sizes program .noTape
  | longTape {run : Run} : program.runs = [run] →
      (∀ symbol ∈ program.occurrences, (textBytes symbol).length = 1) → run.tape ≠ [] →
      sizes.tape < run.tape.length →
      Violates sizes program (.longTape run.tape.length sizes.tape)
  | smallBuffer {run : Run} : program.runs = [run] →
      (∀ symbol ∈ program.occurrences, (textBytes symbol).length = 1) → run.tape ≠ [] →
      run.tape.length ≤ sizes.tape → sizes.printBuffer < 4*run.tape.length+8 →
      Violates sizes program
        (.smallBuffer run.tape.length (4*run.tape.length+8) sizes.printBuffer)

variable {sizes : Sizes} {program : Program} {run : Run} {refusal : Refusal}

theorem drawnLength_eq (cells : Int) : drawnLength cells = 4*cells+8 := by
  unfold drawnLength
  omega

theorem occurrences_of_single (single : program.runs = [run]) : program.occurrences =
    program.rules.flatMap (fun rule => [rule.state,rule.read,rule.write,rule.next]) ++
      run.state :: run.tape := by
  simp [Program.occurrences,single]

theorem accept_of_narrow (single : program.runs = [run])
    (narrow : ∀ symbol ∈ program.occurrences, (textBytes symbol).length = 1) :
    sizes.accept program =
      if run.tape = [] then .error .noTape
      else if sizes.tape < run.tape.length then .error (.longTape run.tape.length sizes.tape)
      else if sizes.printBuffer < 4*run.tape.length+8 then
        .error (.smallBuffer run.tape.length (4*run.tape.length+8) sizes.printBuffer)
      else .ok run := by
  have noWide : (program.occurrences.find? fun symbol => (textBytes symbol).length ≠ 1) = none := by
    simpa using narrow
  simp only [Sizes.accept,single,noWide,drawnLength_eq,List.length_eq_zero_iff]

theorem accept_of_accepted (accepted : Accepted sizes program run) :
    sizes.accept program = .ok run := by
  obtain ⟨single,narrow,filled,tapeFits,bufferFits⟩ := accepted
  rw [drawnLength_eq] at bufferFits
  rw [accept_of_narrow single narrow,if_neg filled,if_neg (Int.not_lt.mpr tapeFits),
    if_neg (Int.not_lt.mpr bufferFits)]

theorem accept_of_violates (violates : Violates sizes program refusal) :
    sizes.accept program = .error refusal := by
  cases violates with
  | runCount several =>
    unfold Sizes.accept
    split
    · rename_i single
      simp [single] at several
    · rfl
  | @wideSymbol run before after symbol single order narrow wide =>
    have found : (program.occurrences.find? fun symbol => (textBytes symbol).length ≠ 1) =
        some symbol := by
      rw [occurrences_of_single single,order,List.find?_eq_some_iff_append]
      exact ⟨by simpa using wide,before,after,rfl,by simpa using narrow⟩
    simp only [Sizes.accept,single,found]
  | noTape single narrow empty => rw [accept_of_narrow single narrow,if_pos empty]
  | longTape single narrow filled long =>
    rw [accept_of_narrow single narrow,if_neg filled,if_pos long]
  | smallBuffer single narrow filled fits small =>
    rw [accept_of_narrow single narrow,if_neg filled,if_neg (Int.not_lt.mpr fits),if_pos small]

-- Nothing lies between the two: a program is as it has to be, or something is the first to be
-- missed.
theorem accepted_or_violates (sizes : Sizes) (program : Program) :
    (∃ run, Accepted sizes program run) ∨ ∃ refusal, Violates sizes program refusal := by
  by_cases count : program.runs.length = 1
  · obtain ⟨run,single⟩ := List.length_eq_one_iff.mp count
    by_cases narrow : ∀ symbol ∈ program.occurrences, (textBytes symbol).length = 1
    · by_cases filled : run.tape = []
      · exact .inr ⟨_,.noTape single narrow filled⟩
      · by_cases tapeFits : (run.tape.length : Int) ≤ sizes.tape
        · by_cases bufferFits : drawnLength run.tape.length ≤ sizes.printBuffer
          · exact .inl ⟨run,single,narrow,filled,tapeFits,bufferFits⟩
          · rw [drawnLength_eq,Int.not_le] at bufferFits
            exact .inr ⟨_,.smallBuffer single narrow filled tapeFits bufferFits⟩
        · exact .inr ⟨_,.longTape single narrow filled (Int.not_le.mp tapeFits)⟩
    · obtain ⟨symbol,found⟩ : ∃ symbol,
          (program.occurrences.find? fun symbol => (textBytes symbol).length ≠ 1) = some symbol := by
        rw [← Option.isSome_iff_exists,List.find?_isSome]
        simpa using narrow
      obtain ⟨wide,before,after,order,earlier⟩ := List.find?_eq_some_iff_append.mp found
      rw [occurrences_of_single single] at order
      exact .inr ⟨_,.wideSymbol single order (by simpa using earlier) (by simpa using wide)⟩
  · exact .inr ⟨_,.runCount count⟩

theorem accept_eq_error_iff :
    sizes.accept program = .error refusal ↔ Violates sizes program refusal := by
  constructor
  · intro refused
    rcases accepted_or_violates sizes program with ⟨run,accepted⟩ | ⟨other,violates⟩
    · rw [accept_of_accepted accepted] at refused
      cases refused
    · rw [accept_of_violates violates] at refused
      cases refused
      exact violates
  · exact accept_of_violates

theorem Violates.numbers (violates : Violates sizes program refusal) :
    ∀ size ∈ refusal.numbers, size = sizes.tape ∨ size = sizes.printBuffer := by
  cases violates <;> simp [Refusal.numbers]

def Sizes.AreWritable (sizes : Sizes) : Prop :=
  Text.isWritable sizes.tape = true ∧ Text.isWritable sizes.printBuffer = true

theorem writable_buffers (sizes : Sizes) :
    (bufferLines sizes.tape sizes.printBuffer).all Line.isWritable = true ↔ sizes.AreWritable := by
  have short : Text.isWritable 1 = true := by decide +kernel
  simp [bufferLines,Line.isWritable,Line.numbers,Sizes.AreWritable,short]

theorem compile_ok_of_accepted (accepted : Accepted sizes program run)
    (short : sizes.AreWritable) : ∃ listing, sizes.compile program = .ok listing := by
  obtain ⟨state,lines⟩ := programLines_ok accepted.narrow_state accepted.narrow_tape program
  have all := (writable_buffers sizes).mpr short
  cases compiled : sizes.compile program with
  | ok listing => exact ⟨listing,rfl⟩
  | error cause => simp [Sizes.compile,accept_of_accepted accepted,writable,all,lines] at compiled

theorem compile_error_of_accepted (accepted : Accepted sizes program run)
    (long : ¬ sizes.AreWritable) : sizes.compile program = .error (.emission .longNumber) := by
  have some := (writable_buffers sizes).not.mpr long
  simp only [Sizes.compile,accept_of_accepted accepted,writable,if_neg some]

theorem compile_of_violates (violates : Violates sizes program refusal) :
    sizes.compile program = .error refusal.error := by
  simp only [Sizes.compile,accept_of_violates violates]

theorem Refusal.error_of_short (short : ∀ size ∈ refusal.numbers, Text.isWritable size = true) :
    refusal.error = .refused refusal := if_pos (List.all_eq_true.mpr short)

theorem Refusal.error_of_long (long : ∃ size ∈ refusal.numbers, Text.isWritable size = false) :
    refusal.error = .emission .longNumber := by
  refine if_neg ?_
  simpa using long

structure Decided (sizes : Sizes) (program : Program) : Prop where
  returns : (∃ listing, sizes.compile program = .ok listing) ↔
    sizes.AreWritable ∧ ∃ run, program.runs = [run] ∧
      (∀ symbol ∈ program.occurrences, (textBytes symbol).length = 1) ∧ run.tape ≠ [] ∧
      run.tape.length ≤ sizes.tape ∧ 4*run.tape.length+8 ≤ sizes.printBuffer
  refuses : ∀ refusal, sizes.compile program = .error (.refused refusal) ↔
    Violates sizes program refusal ∧ ∀ size ∈ refusal.numbers, Text.isWritable size = true
  -- No symbol is ever found to be undeclared or of more than one character.
  fails : ∀ cause, sizes.compile program = .error (.emission cause) ↔ cause = .longNumber ∧
    ((∃ run, Accepted sizes program run ∧ ¬ sizes.AreWritable) ∨
      ∃ refusal, Violates sizes program refusal ∧
        ∃ size ∈ refusal.numbers, Text.isWritable size = false)
  first : ∀ refusal other, Violates sizes program refusal → Violates sizes program other →
    refusal = other
  haltStates : ∀ other : Program, other.rules = program.rules → other.runs = program.runs →
    sizes.compile other = sizes.compile program

theorem accepted_iff : (∃ run, Accepted sizes program run) ↔ ∃ run, program.runs = [run] ∧
    (∀ symbol ∈ program.occurrences, (textBytes symbol).length = 1) ∧ run.tape ≠ [] ∧
    run.tape.length ≤ sizes.tape ∧ 4*run.tape.length+8 ≤ sizes.printBuffer := by
  constructor
  · rintro ⟨run,single,narrow,filled,tapeFits,bufferFits⟩
    rw [drawnLength_eq] at bufferFits
    exact ⟨run,single,narrow,filled,tapeFits,bufferFits⟩
  · rintro ⟨run,single,narrow,filled,tapeFits,bufferFits⟩
    exact ⟨run,single,narrow,filled,tapeFits,by rwa [drawnLength_eq]⟩

theorem compile_cases (sizes : Sizes) (program : Program) :
    (∃ run listing, Accepted sizes program run ∧ sizes.AreWritable ∧
      sizes.compile program = .ok listing) ∨
    (∃ run, Accepted sizes program run ∧ ¬ sizes.AreWritable ∧
      sizes.compile program = .error (.emission .longNumber)) ∨
    (∃ refusal, Violates sizes program refusal ∧
      (∀ size ∈ refusal.numbers, Text.isWritable size = true) ∧
      sizes.compile program = .error (.refused refusal)) ∨
    ∃ refusal, Violates sizes program refusal ∧
      (∃ size ∈ refusal.numbers, Text.isWritable size = false) ∧
      sizes.compile program = .error (.emission .longNumber) := by
  rcases accepted_or_violates sizes program with ⟨run,accepted⟩ | ⟨refusal,violates⟩
  · by_cases short : sizes.AreWritable
    · obtain ⟨listing,compiled⟩ := compile_ok_of_accepted accepted short
      exact .inl ⟨run,listing,accepted,short,compiled⟩
    · exact .inr (.inl ⟨run,accepted,short,compile_error_of_accepted accepted short⟩)
  · have compiled := compile_of_violates violates
    by_cases short : ∀ size ∈ refusal.numbers, Text.isWritable size = true
    · rw [Refusal.error_of_short short] at compiled
      exact .inr (.inr (.inl ⟨refusal,violates,short,compiled⟩))
    · have long : ∃ size ∈ refusal.numbers, Text.isWritable size = false := by simpa using short
      rw [Refusal.error_of_long long] at compiled
      exact .inr (.inr (.inr ⟨refusal,violates,long,compiled⟩))

theorem compile_decided (sizes : Sizes) (program : Program) : Decided sizes program := by
  refine ⟨?_,?_,?_,?_,?_⟩
  · rw [← accepted_iff]
    constructor
    · rintro ⟨listing,compiled⟩
      rcases compile_cases sizes program with ⟨run,_,accepted,short,_⟩ | ⟨_,_,_,failed⟩ |
        ⟨_,_,_,failed⟩ | ⟨_,_,_,failed⟩
      · exact ⟨short,run,accepted⟩
      all_goals cases compiled.symm.trans failed
    · rintro ⟨short,run,accepted⟩
      exact compile_ok_of_accepted accepted short
  · intro refusal
    constructor
    · intro failed
      rcases compile_cases sizes program with ⟨_,_,_,_,other⟩ | ⟨_,_,_,other⟩ |
        ⟨_,violates,short,other⟩ | ⟨_,_,_,other⟩ <;> cases failed.symm.trans other
      exact ⟨violates,short⟩
    · rintro ⟨violates,short⟩
      rw [compile_of_violates violates,Refusal.error_of_short short]
  · intro cause
    constructor
    · intro failed
      rcases compile_cases sizes program with ⟨_,_,_,_,other⟩ | ⟨run,accepted,long,other⟩ |
        ⟨_,_,_,other⟩ | ⟨refusal,violates,long,other⟩ <;> cases failed.symm.trans other
      · exact ⟨rfl,.inl ⟨run,accepted,long⟩⟩
      · exact ⟨rfl,.inr ⟨refusal,violates,long⟩⟩
    · rintro ⟨rfl,⟨run,accepted,long⟩ | ⟨refusal,violates,long⟩⟩
      · exact compile_error_of_accepted accepted long
      · rw [compile_of_violates violates,Refusal.error_of_long long]
  · intro refusal other violates violates'
    exact Except.error.inj ((accept_of_violates violates).symm.trans (accept_of_violates violates'))
  · intro other rules runs
    simp only [Sizes.compile,Sizes.accept,Program.occurrences,Listing.data,declaredTexts,rules,runs]

def hugeBuffer : Sizes := { printBuffer := Nat.pow 16 3572 }

theorem huge_buffer_unwritable :
    Accepted hugeBuffer (.of [] [⟨["0"],"A"⟩] []) ⟨["0"],"A"⟩ ∧
      Sizes.compile hugeBuffer (.of [] [⟨["0"],"A"⟩] []) = .error (.emission .longNumber) := by
  have enough : drawnLength 1 ≤ hugeBuffer.printBuffer := by decide +kernel
  have accepted : Accepted hugeBuffer (.of [] [⟨["0"],"A"⟩] []) ⟨["0"],"A"⟩ :=
    ⟨rfl,by decide,by simp,by decide,enough⟩
  have long : Text.isWritable hugeBuffer.printBuffer = false := by decide +kernel
  refine ⟨accepted,compile_error_of_accepted accepted ?_⟩
  intro short
  exact Bool.false_ne_true (long.symm.trans short.2)

end TapeMachine.Assembly
