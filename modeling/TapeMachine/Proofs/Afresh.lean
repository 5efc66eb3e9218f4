import TapeMachine.Assembly.Operation
import TapeMachine.Proofs.Assembled

-- Compilations behind other operations. A program that is refused leaves the listing alone, and
-- one that is accepted begins with a blank one, so nothing gets from one compilation to the next.
namespace TapeMachine.Assembly

namespace Work

variable {α β : Type}

theorem on_bind (work : Work α) (next : α → Work β) (listing : Listing) :
    (work >>= next).on listing = match work.on listing with
      | (.ok value,after) => (next value).on after
      | (.error cause,after) => (.error cause,after) := by
  simp only [on,ExceptT.run_bind,StateT.run_bind]
  rcases h : StateT.run (ExceptT.run work) listing with ⟨⟨cause⟩ | ⟨value⟩,after⟩ <;> rfl

theorem on_emit (lines : List Line) (listing : Listing) :
    (emit lines).on listing = (.ok (),listing.emit lines) := rfl

theorem on_judged (outcome : Except EmissionError α) (listing : Listing) :
    (judged outcome).on listing = (outcome.mapError .emission,listing) := by
  cases outcome <;> rfl

theorem on_add (lines : List Line × Except EmissionError Unit) (listing : Listing) :
    (add lines).on listing = (lines.2.mapError .emission,listing.emit lines.1) := by
  rw [add,on_bind,on_emit]
  exact on_judged lines.2 _

theorem on_declareAll (texts : List (String × Option String)) (listing : Listing) :
    (declareAll texts).on listing = (.ok (),listing.declareAll texts) := by
  induction texts generalizing listing with
  | nil => rfl
  | cons entry texts ih =>
    have first : (declareAll (entry :: texts)).on listing =
        (declareAll texts).on (listing.declare entry.1 entry.2).2 := by
      unfold declareAll
      rfl
    rw [first,ih]
    rfl

theorem on_print (text : String) (listing : Listing) :
    (print text).on listing = match printLines text listing with
      | .ok lines => (.ok (),listing.emit lines)
      | .error cause => (.error (.emission cause),listing) := by
  have judging : (print text).on listing =
      (judged (printLines text listing) >>= emit).on listing := rfl
  rw [judging,on_bind,on_judged]
  cases printLines text listing <;> rfl

end Work

namespace Listing

theorem emit_emit (first rest : List Line) (listing : Listing) :
    (listing.emit first).emit rest = listing.emit (first ++ rest) := by
  simp [emit]

theorem printLines_emit (text : String) (lines : List Line) (listing : Listing) :
    printLines text (listing.emit lines) = printLines text listing := rfl

end Listing

variable {sizes : Sizes} {program : Program} {run : Run} {listing : Listing}

open Work Listing

-- Step by step a program is laid as it is compiled: with the same failure, or with all the same
-- lines behind the data.
theorem lay_on_blank (accepted : sizes.accept program = .ok run) :
    (∃ made, sizes.compile program = .ok made ∧ (sizes.lay program run).on .blank = (.ok (),made)) ∨
      ∃ cause, sizes.compile program = .error cause ∧
        ((sizes.lay program run).on .blank).1 = .error cause := by
  have data : Listing.declareAll (declaredTexts program run) (Listing.declareAll fixedTexts
      (Listing.emit [.elf,.empty,.part ".data" "writeable"] .blank)) = .data program run := rfl
  simp only [Sizes.lay,Sizes.reserve,on_bind,on_emit,on_declareAll,on_add,on_judged,on_print,data]
  simp only [Sizes.compile,accepted,programLines,printLines_emit]
  cases (writable (bufferLines sizes.tape sizes.printBuffer)).2 with
  | error cause => exact .inr ⟨_,rfl,rfl⟩
  | ok =>
    cases codePoint run.state with
    | error cause => exact .inr ⟨_,rfl,rfl⟩
    | ok state =>
      cases (tapeLines run.tape).2 with
      | error cause => exact .inr ⟨_,rfl,rfl⟩
      | ok =>
        cases declared : printLines "\n" (Listing.data program run) with
        | error cause =>
          refine .inr ⟨_,rfl,?_⟩
          simp only [Except.mapError,printLines_emit,declared]
        | ok lineEnd =>
          refine .inl ⟨_,rfl,?_⟩
          simp only [Except.mapError,printLines_emit,declared,emit_emit,List.append_assoc,
            List.cons_append,List.nil_append]

theorem translate_of_refused {refusal : Refusal} (refused : sizes.accept program = .error refusal)
    (listing : Listing) : (sizes.translate program).on listing = (.error refusal.error,listing) := by
  simp only [Sizes.translate,refused]
  rfl

theorem translate_of_accepted (accepted : sizes.accept program = .ok run) (listing : Listing) :
    (sizes.translate program).on listing = match (sizes.lay program run).on .blank with
      | (.ok (),made) => (.ok made.text,made)
      | (.error cause,left) => (.error cause,left) := by
  simp only [Sizes.translate,accepted]
  rw [on_bind]
  show ((sizes.lay program run) >>= fun _ => get >>= fun made => pure made.text : Work String).on
    .blank = _
  rw [on_bind]
  rcases (sizes.lay program run).on .blank with ⟨⟨cause⟩ | ⟨_⟩,after⟩ <;> rfl

theorem translate_of_compiled {made : Listing} (compiled : sizes.compile program = .ok made)
    (listing : Listing) : (sizes.translate program).on listing = (.ok made.text,made) := by
  cases accepts : sizes.accept program with
  | error refusal =>
    simp only [Sizes.compile,accepts] at compiled
    cases compiled
  | ok run =>
    rw [translate_of_accepted accepts]
    rcases lay_on_blank accepts with ⟨other,same,laid⟩ | ⟨cause,failed,_⟩
    · rw [laid]
      cases compiled.symm.trans same
      rfl
    · cases compiled.symm.trans failed

theorem translate_of_failed {cause : CompileError} (failed : sizes.compile program = .error cause)
    (listing : Listing) : ((sizes.translate program).on listing).1 = .error cause := by
  cases accepts : sizes.accept program with
  | error refusal =>
    simp only [Sizes.compile,accepts] at failed
    rw [translate_of_refused accepts]
    cases failed
    rfl
  | ok run =>
    rw [translate_of_accepted accepts]
    rcases lay_on_blank accepts with ⟨_,compiled,_⟩ | ⟨other,same,broken⟩
    · cases compiled.symm.trans failed
    · cases same.symm.trans failed
      rcases laid : (sizes.lay program run).on .blank with ⟨outcome,left⟩
      rw [laid] at broken
      cases broken
      rfl

def Sizes.behind (sizes : Sizes) (operations : List Operation) (listing : Listing) : Listing :=
  operations.foldl (fun listing operation => (sizes.perform operation listing).2) listing

theorem performAll_append (sizes : Sizes) (first rest : List Operation) (listing : Listing) :
    sizes.performAll (first ++ rest) listing =
      sizes.performAll first listing ++ sizes.performAll rest (sizes.behind first listing) := by
  induction first generalizing listing with
  | nil => rfl
  | cons operation first ih =>
    simp only [List.cons_append,Sizes.performAll,ih]
    rfl

def Operation.Compiles (program : Program) (operation : Operation) : Prop :=
  operation = .compile program ∨ operation = .write program

theorem perform_compile (sizes : Sizes) (program : Program) (listing : Listing) :
    sizes.perform (.compile program) listing =
      (((sizes.translate program).on listing).1.map .text,
        ((sizes.translate program).on listing).2) := rfl

theorem perform_write (sizes : Sizes) (program : Program) (listing : Listing) :
    sizes.perform (.write program) listing =
      (((sizes.translate program).on listing).1.map (.written · 1),
        ((sizes.translate program).on listing).2) := by
  simp only [Sizes.perform,Sizes.deliver]
  rcases (sizes.translate program).on listing with ⟨⟨cause⟩ | ⟨text⟩,after⟩
  · rfl
  · simp [emittedText,emittedFlushes,Emission.text,Except.map]

section

variable {operation : Operation} (compiles : operation.Compiles program)
include compiles

theorem perform_accepted (accepted : sizes.accept program = .ok run) (listing : Listing) :
    sizes.perform operation listing = sizes.perform operation .blank := by
  have same := (translate_of_accepted accepted listing).trans (translate_of_accepted accepted .blank).symm
  rcases compiles with rfl | rfl
  · rw [perform_compile,perform_compile,same]
  · rw [perform_write,perform_write,same]

theorem perform_refused {refusal : Refusal} (refused : sizes.accept program = .error refusal)
    (listing : Listing) : sizes.perform operation listing = (.error refusal.error,listing) := by
  rcases compiles with rfl | rfl
  · rw [perform_compile,translate_of_refused refused]
    rfl
  · rw [perform_write,translate_of_refused refused]
    rfl

end

structure CompilesAfresh (sizes : Sizes) (earlier : List Operation) (program : Program) : Prop where
  outcome : (sizes.perform (.compile program) (sizes.behind earlier .blank)).1 =
    (sizes.perform (.compile program) .blank).1
  returns : ∀ made, sizes.compile program = .ok made →
    sizes.perform (.compile program) (sizes.behind earlier .blank) = (.ok (.text made.text),made) ∧
      sizes.perform (.compile program) .blank = (.ok (.text made.text),made)
  refuses : ∀ refusal, sizes.accept program = .error refusal →
    sizes.perform (.compile program) (sizes.behind earlier .blank) =
      (.error refusal.error,sizes.behind earlier .blank)
  -- Of an accepted program as many lines are left as a blank listing would have got. There are
  -- not all of them if a size is too long to be written, which no refusal is about.
  accepts : ∀ run, sizes.accept program = .ok run →
    sizes.perform (.compile program) (sizes.behind earlier .blank) =
      sizes.perform (.compile program) .blank
  raises : ∀ cause, (sizes.perform (.compile program) (sizes.behind earlier .blank)).1 = .error cause ↔
    sizes.compile program = .error cause
  delivers : ∀ made sink, sizes.compile program = .ok made →
    sizes.deliver program sink (sizes.behind earlier .blank) =
      (.ok (),sink ++ [.written made.text,.flushed],made)
  withholds : ∀ cause sink, sizes.compile program = .error cause →
    sizes.deliver program sink (sizes.behind earlier .blank) =
      (.error cause,sink,(sizes.perform (.compile program) (sizes.behind earlier .blank)).2)
  forgets : ∀ operation run later, operation.Compiles program → sizes.accept program = .ok run →
    sizes.performAll (earlier ++ operation :: later) .blank =
      sizes.performAll earlier .blank ++ sizes.performAll (operation :: later) .blank
  passesOver : ∀ operation refusal later, operation.Compiles program →
    sizes.accept program = .error refusal →
    sizes.performAll (earlier ++ operation :: later) .blank =
      sizes.performAll earlier .blank ++
        (.error refusal.error,sizes.behind earlier .blank) ::
          sizes.performAll later (sizes.behind earlier .blank)

theorem perform_compile_eq (sizes : Sizes) (program : Program) (listing : Listing) :
    (sizes.perform (.compile program) listing).1 =
      (sizes.compile program).map fun made => .text made.text := by
  rw [perform_compile]
  cases compiled : sizes.compile program with
  | ok made => rw [translate_of_compiled compiled]; rfl
  | error cause => rw [translate_of_failed compiled]; rfl

theorem compiles_afresh (sizes : Sizes) (earlier : List Operation) (program : Program) :
    CompilesAfresh sizes earlier program where
  outcome := by rw [perform_compile_eq,perform_compile_eq]
  returns := by
    intro made compiled
    simp only [perform_compile,translate_of_compiled compiled]
    exact ⟨rfl,rfl⟩
  refuses := fun _ refused => perform_refused (.inl rfl) refused _
  accepts := fun _ accepted => perform_accepted (.inl rfl) accepted _
  raises := by
    intro cause
    rw [perform_compile_eq]
    cases sizes.compile program <;> simp [Except.map]
  delivers := by
    intro made sink compiled
    rw [Sizes.deliver,translate_of_compiled compiled]
  withholds := by
    intro cause sink failed
    have broken := translate_of_failed failed (sizes.behind earlier .blank)
    rw [perform_compile,Sizes.deliver]
    rcases translated : (sizes.translate program).on (sizes.behind earlier .blank) with ⟨outcome,left⟩
    rw [translated] at broken
    cases broken
    rfl
  forgets := by
    intro operation run later compiles accepted
    rw [performAll_append]
    simp only [Sizes.performAll,perform_accepted compiles accepted (sizes.behind earlier .blank)]
  passesOver := by
    intro operation refusal later compiles refused
    rw [performAll_append]
    simp only [Sizes.performAll,perform_refused compiles refused]

end TapeMachine.Assembly
