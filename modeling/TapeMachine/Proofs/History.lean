import TapeMachine.Proofs.EmptyTapes
import TapeMachine.Proofs.Registers

-- The history of a result as a certificate. Whether an entry is right can be seen from the
-- program, the run and the neighbouring entries alone, without a machine.
namespace TapeMachine

structure Program.Picks (program : Program) (state symbol : String) (rule : Rule) : Prop where
  forState : rule.state = state
  forSymbol : rule.read = symbol
  first : ∃ earlier later, program.rules = earlier ++ rule :: later ∧
    ∀ other ∈ earlier, ¬(other.state = state ∧ other.read = symbol)

-- What an entry's rule makes of the entry's tape and head. What the tape may grow by is the
-- last symbol that it had at the very beginning.
structure Moment.LeadsTo (program : Program) (run : Run) (moment : Moment) (cells : List String)
    (head : Nat) : Prop where
  moved : (head : Int) = moment.head + moment.rule.direction.offset
  written : cells = moment.cells.set moment.head moment.rule.write ++
    if moment.cells.length ≤ head ∧ moment.rule.next ∉ program.haltStates
      then run.tape.getLast?.toList else []

def stateAt (run : Run) (history : List Moment) : Nat → Option String
  | 0 => some run.state
  | place+1 => history[place]?.map fun moment => moment.rule.next

structure RunResult.Certified (program : Program) (run : Run) (result : RunResult) : Prop where
  told : result.run = run
  counted : result.history.length = result.steps ∧ 1 ≤ result.steps
  numbered : ∀ (place : Nat) (moment : Moment), result.history[place]? = some moment →
    moment.step = place
  begins : ∃ moment, result.history[0]? = some moment ∧ moment.cells = run.tape ∧ moment.head = 0
  picks : ∀ (place : Nat) (moment : Moment), result.history[place]? = some moment →
    ∃ state symbol, stateAt run result.history place = some state ∧ moment.cells[moment.head]? = some symbol ∧
      program.Picks state symbol moment.rule
  onward : ∀ (place : Nat) (moment next : Moment), result.history[place]? = some moment →
    result.history[place+1]? = some next →
      moment.LeadsTo program run next.cells next.head ∧ moment.rule.next ∉ program.haltStates
  ends : ∃ moment, result.history.getLast? = some moment ∧
    moment.LeadsTo program run result.cells result.head ∧ moment.rule.next = result.finalState ∧
      result.finalState ∈ program.haltStates

theorem Program.halts_iff (program : Program) (state : String) :
    program.halts state = true ↔ state ∈ program.haltStates := by
  simp [halts]

theorem Program.picks_of_rule? {program : Program} {state symbol : String} {rule : Rule}
    (found : program.rule? state symbol = some rule) : program.Picks state symbol rule := by
  obtain ⟨fits,earlier,later,rules,none⟩ := List.find?_eq_some_iff_append.mp found
  simp only [decide_eq_true_eq] at fits
  refine ⟨fits.1,fits.2,earlier,later,rules,?_⟩
  intro other member
  simpa only [Bool.not_eq_true',decide_eq_false_iff_not] using none other member

namespace Machine

variable {program : Program} {run : Run} {machine next last : Machine} {rule : Rule}

theorem picks_of_lookup (found : machine.lookup program = .ok rule) :
    ∃ symbol, machine.tape.cells[machine.head]? = some symbol ∧
      program.Picks machine.state symbol rule := by
  unfold lookup symbol at found
  cases read : machine.headed.read with
  | error cause => simp [read] at found
  | ok symbol =>
    simp only [read] at found
    cases picked : program.rule? machine.state symbol with
    | none => simp [picked] at found
    | some other =>
      simp only [picked] at found
      cases found
      exact ⟨symbol,(Tape.Headed.read_eq_ok_iff _ _).mp read,Program.picks_of_rule? picked⟩

theorem Applied.leadsTo (applied : Applied program rule machine next)
    (filler : run.tape.getLast? = some machine.tape.filler) :
    (machine.moment rule).LeadsTo program run next.tape.cells next.head := by
  refine ⟨(Direction.offset_of_beside? applied.head).symm,?_⟩
  have grows : (program.halts rule.next = false ∧ machine.tape.cells.length ≤ next.head) ↔
      (machine.tape.cells.length ≤ next.head ∧ rule.next ∉ program.haltStates) := by
    rw [← Program.halts_iff,Bool.not_eq_true,and_comm]
  rw [applied.cells,filler]
  simp only [grows]
  rfl

theorem Course.around {before later : List Moment} {moment : Moment}
    (course : Course program machine (before ++ moment :: later) last) :
    ∃ reached rule next, Course program machine before reached ∧ reached.halted = false ∧
      reached.step program = .ok (rule,next) ∧ moment = reached.moment rule ∧
      Course program next later last := by
  obtain ⟨reached,begun,finished⟩ := course.split
  cases finished with
  | more running stepped onward => exact ⟨reached,_,_,begun,running,stepped,rfl,onward⟩

theorem Course.filler_eq {moments : List Moment} (course : Course program machine moments last) :
    last.tape.filler = machine.tape.filler := by
  induction course with
  | done => rfl
  | more _ stepped _ ih => rw [ih,(applied_of_step stepped).filler]

theorem entered_iff (running : machine.halted = false)
    (stepped : machine.step program = .ok (rule,next)) :
    next.halted = true ↔ next.state ∈ program.haltStates := by
  have applied := applied_of_step stepped
  rw [applied.halted,running,Bool.or_false,applied.state,Program.halts_iff]

end Machine

open Machine

variable {program : Program} {run : Run} {fresh last : Machine} {moments : List Moment}
  {place : Nat} {moment : Moment}

theorem entry_at (course : Course program fresh moments last) (there : moments[place]? = some moment) :
    ∃ reached rule next, Course program fresh (moments.take place) reached ∧
      reached.halted = false ∧ reached.step program = .ok (rule,next) ∧
      moment = reached.moment rule ∧ Course program next (moments.drop (place+1)) last := by
  obtain ⟨inside,rfl⟩ := List.getElem?_eq_some_iff.mp there
  rw [← List.take_append_drop place moments,List.drop_eq_getElem_cons inside] at course
  exact course.around

theorem entry_behind (course : Course program fresh moments last)
    (there : moments[place]? = some moment) {following : Moment}
    (behind : moments[place+1]? = some following) :
    ∃ reached rule next rule' after, Course program fresh (moments.take place) reached ∧
      reached.halted = false ∧ reached.step program = .ok (rule,next) ∧ moment = reached.moment rule ∧
      next.halted = false ∧ next.step program = .ok (rule',after) ∧ following = next.moment rule' := by
  obtain ⟨reached,rule,next,begun,running,stepped,same,onward⟩ := entry_at course there
  obtain ⟨inside,rfl⟩ := List.getElem?_eq_some_iff.mp behind
  rw [List.drop_eq_getElem_cons inside] at onward
  generalize moments[place+1] = following at onward
  cases onward with
  | more running' stepped' _ =>
    exact ⟨reached,rule,next,_,_,begun,running,stepped,same,running',stepped',rfl⟩

theorem picked_at (started : Fresh run fresh) (course : Course program fresh moments last)
    (there : moments[place]? = some moment) : ∃ state symbol,
      stateAt run moments place = some state ∧ moment.cells[moment.head]? = some symbol ∧
        program.Picks state symbol moment.rule := by
  cases place with
  | zero =>
    obtain ⟨reached,rule,next,begun,_,stepped,rfl,_⟩ := entry_at course there
    cases begun
    obtain ⟨symbol,read,picks⟩ := picks_of_lookup (step_eq_ok_iff.mp stepped).1
    exact ⟨_,symbol,congrArg some started.state.symm,read,picks⟩
  | succ before =>
    obtain ⟨inside,_⟩ := List.getElem?_eq_some_iff.mp there
    have earlier := List.getElem?_eq_getElem (Nat.lt_of_succ_lt inside)
    obtain ⟨_,rule,next,_,_,_,_,stepped,same,_,stepped',rfl⟩ := entry_behind course earlier there
    obtain ⟨symbol,read,picks⟩ := picks_of_lookup (step_eq_ok_iff.mp stepped').1
    have entered : stateAt run moments (before+1) = some next.state := by
      rw [stateAt,earlier,same,(applied_of_step stepped).state]
      rfl
    exact ⟨_,symbol,entered,read,picks⟩

theorem ended_at (started : Fresh run fresh) (course : Course program fresh moments last)
    (stopped : last.halted = true) : ∃ moment, moments.getLast? = some moment ∧
      moment.LeadsTo program run last.tape.cells last.head ∧ moment.rule.next = last.state ∧
        last.state ∈ program.haltStates := by
  have some : moments ≠ [] := by
    rintro rfl
    cases course
    simp [started.running] at stopped
  rw [← List.dropLast_concat_getLast some] at course
  obtain ⟨reached,rule,next,begun,running,stepped,same,finished⟩ := course.around
  cases finished
  have applied := applied_of_step stepped
  refine ⟨_,List.getLast?_eq_some_getLast some,?_,?_,(entered_iff running stepped).mp stopped⟩
  · rw [same]
    exact applied.leadsTo (begun.filler_eq ▸ started.filler)
  · rw [same,applied.state]
    rfl

theorem numbered_at (started : Fresh run fresh) (course : Course program fresh moments last)
    (there : moments[place]? = some moment) : moment.step = place := by
  obtain ⟨reached,rule,_,begun,_,_,rfl,_⟩ := entry_at course there
  obtain ⟨inside,_⟩ := List.getElem?_eq_some_iff.mp there
  have steps := started.counted begun
  rw [List.length_take,Nat.min_eq_left (Nat.le_of_lt inside)] at steps
  exact steps

theorem certified_of_course (started : Fresh run fresh) (course : Course program fresh moments last)
    (stopped : last.halted = true) : RunResult.Certified program run
      ⟨run,last.state,last.tape.cells,last.head,last.steps,moments⟩ := by
  obtain ⟨final,isLast,ended⟩ := ended_at started course stopped
  have some : moments ≠ [] := by
    rintro rfl
    cases isLast
  have count := started.counted course
  exact {
    told := rfl
    counted := ⟨count.symm,count ▸ List.length_pos_iff.mpr some⟩
    numbered := fun _ _ => numbered_at started course
    begins := by
      obtain ⟨moment,rest,rfl⟩ := List.exists_cons_of_ne_nil some
      have first : (moment :: rest)[0]? = Option.some moment := rfl
      obtain ⟨_,rule,_,begun,_,_,rfl,_⟩ := entry_at course first
      cases begun
      exact ⟨_,rfl,started.cells,started.head⟩
    picks := fun _ _ => picked_at started course
    onward := by
      intro place moment following there behind
      obtain ⟨_,rule,_,rule',_,begun,running,stepped,rfl,running',_,rfl⟩ :=
        entry_behind course there behind
      have applied := applied_of_step stepped
      refine ⟨applied.leadsTo (begun.filler_eq ▸ started.filler),fun halting => ?_⟩
      have halted := (entered_iff running stepped).mpr (applied.state ▸ halting)
      exact Bool.noConfusion (running'.symm.trans halted)
    ends := ⟨final,isLast,ended⟩ }

theorem result_certified (program : Program) (limit : Option Int) (run : Run)
    (execution : Execution) (result : RunResult) (comes : program.ComesTo limit run execution)
    (returned : execution.result true = .ok result) : result.Certified program run := by
  have filled : run.tape ≠ [] := by
    intro empty
    obtain ⟨patience,executed⟩ := comes
    cases (program.execute_empty limit patience empty).symm.trans executed
    cases returned
  obtain ⟨fresh,started⟩ := fresh_of run filled
  obtain ⟨told,last,course,ends,_⟩ := (Program.comesTo_iff started).mp comes
  obtain ⟨ran,moments,ending⟩ := execution
  obtain rfl := told
  cases ends with
  | halted stopped =>
    cases returned
    exact certified_of_course started course stopped
  | _ => cases returned

def bouncing : Program :=
  .of [⟨"A","0","1",.right,"B"⟩,⟨"B","0","2",.left,"HALT"⟩,⟨"B","0","3",.right,"HALT"⟩] [] []

def bounced : RunResult :=
  ⟨⟨["0"],"A"⟩,"HALT",["1","2"],0,2,[⟨0,⟨"A","0","1",.right,"B"⟩,⟨[],["0"],"0"⟩⟩,
    ⟨1,⟨"B","0","2",.left,"HALT"⟩,⟨["1"],["0"],"0"⟩⟩]⟩

theorem result_certified_bounced : ∃ execution, bouncing.ComesTo (some 2) ⟨["0"],"A"⟩ execution ∧
    execution.result true = .ok bounced ∧ bounced.Certified bouncing ⟨["0"],"A"⟩ :=
  ⟨_,⟨0,rfl⟩,rfl,result_certified bouncing (some 2) ⟨["0"],"A"⟩ _ bounced ⟨0,rfl⟩ rfl⟩

end TapeMachine
