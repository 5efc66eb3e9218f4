import TapeMachine.Proofs.History

-- Where the caret of a drawing stands, and where the cell begins that it is meant for. The caret
-- allows two columns for every cell, so it keeps up with the head only as long as the cells left
-- of the head have one character each, or make up for each other.
namespace TapeMachine

open Machine

def tapeLine (cells : List String) : String := "[ " ++ spaced cells ++ " ]"
def upToCell (cells : List String) (head : Nat) : String :=
  "[ " ++ String.join ((cells.take head).map (· ++ " "))

def caretLine (head : Nat) : String := "".pushn ' ' (2*head+2) ++ "^"
def upToCaret (head : Nat) : String := "".pushn ' ' (2*head+2)

def column (text : String) : Nat := (text.toList.reverse.takeWhile (· ≠ '\n')).length

def Underlined (cells : List String) (head : Nat) : Prop :=
  column (upToCell cells head) = column (upToCaret head)

structure Marked (cells : List String) (head : Nat) (symbol : String) : Prop where
  there : cells[head]? = some symbol
  lines : drawTape cells head = tapeLine cells ++ "\n" ++ caretLine head ++ "\n"
  above : ∃ rest, tapeLine cells = upToCell cells head ++ symbol ++ rest
  below : caretLine head = upToCaret head ++ "^"

def OneLine (text : String) : Prop := '\n' ∉ text.toList

theorem oneLine_append {first rest : String} :
    OneLine (first ++ rest) ↔ OneLine first ∧ OneLine rest := by
  simp [OneLine,not_or]

theorem oneLine_join {texts : List String} (all : ∀ text ∈ texts, OneLine text) :
    OneLine (String.join texts) := by
  induction texts with
  | nil => simp [OneLine]
  | cons text texts ih =>
    rw [String.join_cons,oneLine_append]
    exact ⟨all text List.mem_cons_self,ih fun text member => all text (List.mem_cons_of_mem _ member)⟩

theorem column_of_oneLine {text : String} (single : OneLine text) : column text = text.length := by
  have all : ∀ c ∈ text.toList.reverse, decide (c ≠ '\n') = true := by
    intro c member
    rw [List.mem_reverse] at member
    exact decide_eq_true fun ends => single (ends ▸ member)
  have whole : (text.toList.reverse ++ []).takeWhile (fun c => decide (c ≠ '\n')) = _ :=
    List.takeWhile_append_of_pos all
  rw [List.append_nil,List.takeWhile_nil,List.append_nil] at whole
  rw [column,whole,List.length_reverse,String.length_toList]

theorem column_upToCaret (head : Nat) : column (upToCaret head) = 2*head+2 := by
  have single : OneLine (upToCaret head) := by simp [OneLine,upToCaret,toList_blanks]
  rw [column_of_oneLine single,upToCaret,String.length_pushn]
  exact Nat.zero_add _

theorem length_spaced (cells : List String) :
    (String.join (cells.map (· ++ " "))).length = (String.join cells).length + cells.length := by
  induction cells with
  | nil => rfl
  | cons cell cells ih =>
    have blank : " ".length = 1 := rfl
    simp only [List.map_cons,String.join_cons,String.length_append,ih,List.length_cons]
    omega

theorem length_join_narrow {cells : List String} (narrow : ∀ cell ∈ cells, cell.length = 1) :
    (String.join cells).length = cells.length := by
  induction cells with
  | nil => rfl
  | cons cell cells ih =>
    have first := narrow cell List.mem_cons_self
    have rest := ih fun cell member => narrow cell (List.mem_cons_of_mem _ member)
    rw [String.join_cons,String.length_append,first,rest,List.length_cons,Nat.add_comm]

theorem spaced_cons (cell : String) (cells : List String) :
    spaced (cell :: cells) = cell ++ String.join (cells.map (" " ++ ·)) := by
  unfold spaced
  induction cells generalizing cell with
  | nil => simp
  | cons next cells ih =>
    rw [String.intercalate_cons_cons,ih,List.map_cons,String.join_cons]
    simp only [String.append_assoc]

theorem spaced_around (left : List String) (cell : String) (right : List String) :
    spaced (left ++ cell :: right) =
      String.join (left.map (· ++ " ")) ++ cell ++ String.join (right.map (" " ++ ·)) := by
  induction left with
  | nil => simp [spaced_cons]
  | cons first left ih =>
    have some : left ++ cell :: right ≠ [] := by simp
    unfold spaced at ih ⊢
    rw [List.cons_append,String.intercalate_cons_of_ne_nil some,ih,List.map_cons,String.join_cons]
    simp only [String.append_assoc]

section

variable {cells : List String} {head : Nat}

theorem column_upToCell (onTape : head ≤ cells.length)
    (single : ∀ cell ∈ cells.take head, OneLine cell) :
    column (upToCell cells head) = (String.join (cells.take head)).length + head + 2 := by
  have line : OneLine (upToCell cells head) := by
    refine oneLine_append.mpr ⟨by simp [OneLine],oneLine_join ?_⟩
    simp only [List.forall_mem_map,oneLine_append]
    exact fun cell member => ⟨single cell member,by simp [OneLine]⟩
  have opening : "[ ".length = 2 := rfl
  rw [column_of_oneLine line,upToCell,String.length_append,length_spaced,List.length_take_of_le onTape,
    opening]
  omega

theorem underlined_iff (onTape : head ≤ cells.length)
    (single : ∀ cell ∈ cells.take head, OneLine cell) :
    Underlined cells head ↔ (String.join (cells.take head)).length = head := by
  rw [Underlined,column_upToCell onTape single,column_upToCaret]
  omega

theorem marked_of_inside (inside : head < cells.length) : Marked cells head cells[head] where
  there := List.getElem?_eq_getElem inside
  lines := by
    have blanks : "".pushn ' ' (2*head+2) = "  " ++ "".pushn ' ' (2*head) := by
      rw [← String.toList_inj,String.toList_append,toList_blanks,toList_blanks]
      rfl
    show "[ " ++ " ".intercalate cells ++ " ]\n  " ++ "".pushn ' ' (2*head) ++ "^\n" = _
    have closing : " ]\n  " = " ]" ++ "\n" ++ "  " := rfl
    have caret : "^\n" = "^" ++ "\n" := rfl
    simp only [tapeLine,spaced,caretLine,blanks,closing,caret,String.append_assoc]
  above := by
    have parted := spaced_around (cells.take head) cells[head] (cells.drop (head+1))
    rw [← List.drop_eq_getElem_cons inside,List.take_append_drop] at parted
    refine ⟨String.join ((cells.drop (head+1)).map (" " ++ ·)) ++ " ]",?_⟩
    simp only [tapeLine,upToCell,parted,String.append_assoc]
  below := rfl

end

structure Drawing where
  caption : String
  cells : List String
  head : Nat

def Drawing.text (drawing : Drawing) : String :=
  drawing.caption ++ drawTape drawing.cells drawing.head

def Moment.drawing (moment : Moment) : Drawing :=
  ⟨moment.rule.text ++ "\n",moment.cells,moment.head⟩

def Ending.drawings : Ending → List Drawing
  | halted machine => [⟨"",machine.tape.cells,machine.head⟩]
  | refused moment _ => [moment.drawing]
  | _ => []

def Ending.closing (ending : Ending) : String :=
  match ending with
  | halted machine => " -- HALT -- with " ++ machine.state ++ "\n\n"
  | _ => ""

def Execution.drawings (execution : Execution) : List Drawing :=
  execution.moments.map Moment.drawing ++ execution.ending.drawings

theorem Execution.trace_drawings {execution : Execution} (begun : execution.ending ≠ .noTape) :
    execution.trace = execution.run.text ++ "\n" ++
      String.join (execution.drawings.map Drawing.text) ++ execution.ending.closing := by
  obtain ⟨run,moments,ending⟩ := execution
  have texts : moments.map (Drawing.text ∘ Moment.drawing) = moments.map Moment.text := rfl
  have single (text : String) : String.join [text] = text := by
    rw [String.join_cons,String.join_nil,String.append_empty]
  simp only [drawings,List.map_append,List.map_map,texts,String.join_append]
  unfold Ending.closing trace
  cases ending with
  | noTape => contradiction
  | halted machine =>
    simp only [Ending.drawings,List.map_cons,List.map_nil,single,Drawing.text,String.empty_append,
      String.append_assoc]
    rfl
  | refused moment cause =>
    have same : moment.drawing.text = moment.text := rfl
    simp only [Ending.drawings,List.map_cons,List.map_nil,single,same,String.append_empty,
      String.append_assoc]
  | stuck cause | limited most state =>
    simp only [Ending.drawings,List.map_nil,String.join_nil,String.append_empty]

def Program.Writes (program : Program) (run : Run) (symbol : String) : Prop :=
  symbol ∈ run.tape ∨ ∃ rule ∈ program.rules, rule.write = symbol

section

variable {program : Program} {run : Run} {machine next last : Machine} {rule : Rule}
  {moments : List Moment}

theorem writes_of_step (stepped : machine.step program = .ok (rule,next))
    (known : ∀ cell ∈ machine.tape.cells, program.Writes run cell)
    (filler : machine.tape.filler ∈ run.tape) :
    ∀ cell ∈ next.tape.cells, program.Writes run cell := by
  obtain ⟨_,_,_,_,earlier,later,rules,_⟩ := picks_of_lookup (step_eq_ok_iff.mp stepped).1
  have declared : rule ∈ program.rules := by simp [rules]
  intro cell member
  rw [(applied_of_step stepped).cells] at member
  rcases List.mem_append.mp member with written | grown
  · rcases List.mem_or_eq_of_mem_set written with old | rfl
    · exact known cell old
    · exact .inr ⟨rule,declared,rfl⟩
  · split at grown
    · exact .inl (List.mem_singleton.mp grown ▸ filler)
    · cases grown

theorem writes_of_course (course : Course program machine moments last)
    (known : ∀ cell ∈ machine.tape.cells, program.Writes run cell)
    (filler : machine.tape.filler ∈ run.tape) :
    ∀ cell ∈ last.tape.cells, program.Writes run cell := by
  induction course with
  | done => exact known
  | more _ stepped _ ih =>
    exact ih (writes_of_step stepped known filler) ((applied_of_step stepped).filler ▸ filler)

end

-- A tape as a run may draw it: with symbols that can come to stand there, and with the head on it
-- or just behind it.
structure Drawing.Sound (program : Program) (run : Run) (drawing : Drawing) : Prop where
  near : drawing.head ≤ drawing.cells.length
  known : ∀ cell ∈ drawing.cells, program.Writes run cell

variable {program : Program} {limit : Option Int} {run : Run} {execution : Execution}

theorem sound_of_comesTo (comes : program.ComesTo limit run execution) :
    ∀ drawing ∈ execution.drawings, drawing.Sound program run ∧
      (drawing.head < drawing.cells.length ∨ ∃ last, execution.ending = .halted last ∧
        drawing = ⟨"",last.tape.cells,last.head⟩) := by
  by_cases filled : run.tape = []
  · obtain ⟨patience,executed⟩ := comes
    rw [program.execute_empty limit patience filled] at executed
    cases executed
    simp [Execution.drawings,Ending.drawings]
  obtain ⟨fresh,started⟩ := fresh_of run filled
  obtain ⟨_,last,course,ends,_⟩ := (Program.comesTo_iff started).mp comes
  have known {moments : List Moment} {reached : Machine}
      (begun : Course program fresh moments reached) :
      ∀ cell ∈ reached.tape.cells, program.Writes run cell :=
    writes_of_course begun (fun cell member => .inl (started.cells ▸ member))
      (List.mem_of_getLast? started.filler)
  have standing {moments : List Moment} {reached : Machine} (rule : Rule)
      (begun : Course program fresh moments reached) (running : reached.halted = false) :
      (reached.moment rule).drawing.Sound program run ∧
        (reached.moment rule).head < (reached.moment rule).cells.length := by
    have inside := begun.inside (fun _ => started.inside filled) running
    exact ⟨⟨Nat.le_of_lt inside,known begun⟩,inside⟩
  intro drawing member
  rcases List.mem_append.mp member with moment | final
  · obtain ⟨moment,there,rfl⟩ := List.mem_map.mp moment
    obtain ⟨before,later,split⟩ := List.append_of_mem there
    rw [split] at course
    obtain ⟨reached,rule,_,begun,running,_,rfl,_⟩ := course.around
    obtain ⟨sound,inside⟩ := standing rule begun running
    exact ⟨sound,.inl inside⟩
  · generalize execution.ending = ending at ends final
    cases ends with
    | halted stopped =>
      cases List.mem_singleton.mp final
      have near : last.head ≤ last.tape.cells.length := course.stands (by simp [started.head])
      exact ⟨⟨near,known course⟩,.inr ⟨last,rfl,rfl⟩⟩
    | @refused rule _ running _ _ _ =>
      cases List.mem_singleton.mp final
      obtain ⟨sound,inside⟩ := standing rule course running
      exact ⟨sound,.inl inside⟩
    | stuck | limited => cases final

structure MarksHeads (program : Program) (run : Run) (execution : Execution) : Prop where
  drawn : execution.ending ≠ .noTape → execution.trace = execution.run.text ++ "\n" ++
    String.join (execution.drawings.map Drawing.text) ++ execution.ending.closing
  -- Only a head that has left the tape to halt has no cell to be marked.
  marked : ∀ drawing ∈ execution.drawings,
    (∃ symbol, Marked drawing.cells drawing.head symbol) ∨ ∃ last, execution.ending = .halted last ∧
      drawing = ⟨"",last.tape.cells,last.head⟩ ∧ last.head = last.tape.cells.length
  columns : ∀ drawing ∈ execution.drawings, column (upToCaret drawing.head) = 2*drawing.head+2 ∧
    ((∀ cell ∈ drawing.cells.take drawing.head, OneLine cell) →
      column (upToCell drawing.cells drawing.head) =
        (String.join (drawing.cells.take drawing.head)).length + drawing.head + 2)
  exact : ∀ drawing ∈ execution.drawings, (∀ cell ∈ drawing.cells.take drawing.head, OneLine cell) →
    (Underlined drawing.cells drawing.head ↔
      (String.join (drawing.cells.take drawing.head)).length = drawing.head)
  narrow : (∀ symbol, program.Writes run symbol → symbol.length = 1 ∧ OneLine symbol) →
    ∀ drawing ∈ execution.drawings, Underlined drawing.cells drawing.head

theorem marks_heads (comes : program.ComesTo limit run execution) :
    MarksHeads program run execution where
  drawn := Execution.trace_drawings
  marked := by
    intro drawing member
    obtain ⟨sound,inside | ⟨last,ended,same⟩⟩ := sound_of_comesTo comes drawing member
    · exact .inl ⟨_,marked_of_inside inside⟩
    · rcases Nat.lt_or_eq_of_le sound.near with inside | behind
      · exact .inl ⟨_,marked_of_inside inside⟩
      · rw [same] at behind
        exact .inr ⟨last,ended,same,behind⟩
  columns := by
    intro drawing member
    have near := (sound_of_comesTo comes drawing member).1.near
    exact ⟨column_upToCaret _,column_upToCell near⟩
  exact := fun drawing member => underlined_iff (sound_of_comesTo comes drawing member).1.near
  narrow := by
    intro narrow drawing member
    obtain ⟨near,known⟩ := (sound_of_comesTo comes drawing member).1
    have left : ∀ cell ∈ drawing.cells.take drawing.head, cell.length = 1 ∧ OneLine cell :=
      fun cell among => narrow cell (known cell (List.mem_of_mem_take among))
    rw [underlined_iff near fun cell among => (left cell among).2,
      length_join_narrow fun cell among => (left cell among).1,List.length_take_of_le near]

def wide : Program := .of [⟨"A","ab","ab",.right,"B"⟩,⟨"B","c","c",.left,"H"⟩] [] ["H"]
def wideRun : Run := ⟨["ab","c"],"A"⟩

def wideExecution : Execution :=
  ⟨wideRun,[⟨0,⟨"A","ab","ab",.right,"B"⟩,⟨[],["ab","c"],"c"⟩⟩,
    ⟨1,⟨"B","c","c",.left,"H"⟩,⟨["ab"],["c"],"c"⟩⟩],.halted ⟨⟨[],["ab","c"],"c"⟩,"H",2,true⟩⟩

theorem wide_comesTo : wide.ComesTo none wideRun wideExecution := ⟨2,rfl⟩

theorem marks_heads_wide : wide.ComesTo none wideRun wideExecution ∧
    MarksHeads wide wideRun wideExecution :=
  ⟨wide_comesTo,marks_heads wide_comesTo⟩

theorem caret_lags : wide.ComesTo none wideRun wideExecution ∧
    ∃ drawing ∈ wideExecution.drawings, drawing.text = "B c c <- H\n[ ab c ]\n    ^\n" ∧
      Marked drawing.cells drawing.head "c" ∧ ¬Underlined drawing.cells drawing.head := by
  refine ⟨wide_comesTo,⟨"B c c <- H\n",["ab","c"],1⟩,?_,rfl,marked_of_inside (by decide),?_⟩
  · exact List.mem_cons_of_mem _ List.mem_cons_self
  · rw [underlined_iff (by decide) (by simp [OneLine])]
    decide

end TapeMachine
