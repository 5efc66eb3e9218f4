import TapeMachine.Proofs.Reading

-- The grammar of program text over its tokens. Parsing accepts just the sentences of this
-- grammar, and the program that it gives is the one that the sentence denotes.
namespace TapeMachine

namespace Statement

inductive Spelled : List Token → Statement → Prop where
  | blank {lineEnd : Token} : lineEnd.kind = .newLine → Spelled [lineEnd] .blank
  | rule {state read write arrow next lineEnd : Token} {direction : Direction} :
      state.kind = .symbol → read.kind = .symbol → write.kind = .symbol →
      Direction.ofArrow arrow.kind = .ok direction → next.kind = .symbol →
      lineEnd.kind = .newLine →
      Spelled [state,read,write,arrow,next,lineEnd]
        (.rule ⟨state.text,read.text,write.text,direction,next.text⟩)
  | run {command bra ket state lineEnd : Token} {cells : List Token} :
      command.kind = .command → command.text = "#run" → bra.kind = .bra →
      (∀ cell ∈ cells, cell.kind = .symbol) → ket.kind = .ket → state.kind = .symbol →
      lineEnd.kind = .newLine →
      Spelled ([command,bra] ++ cells ++ [ket,state,lineEnd])
        (.run ⟨cells.map Token.text,state.text⟩)
  | halt {command lineEnd : Token} {states : List Token} :
      command.kind = .command → command.text = "#halt" →
      (∀ state ∈ states, state.kind = .symbol) → lineEnd.kind = .newLine →
      Spelled ([command] ++ states ++ [lineEnd]) (.halt (states.map Token.text))

end Statement

inductive Sentence : List Token → List Statement → Prop where
  | done : Sentence [] []
  | more {first rest : List Token} {statement : Statement} {statements : List Statement} :
      statement.Spelled first → Sentence rest statements →
      Sentence (first ++ rest) (statement :: statements)

def lastHaltStates (statements : List Statement) : List String :=
  match (statements.filterMap Statement.halt?).getLast? with
  | some (state :: states) => state :: states
  | _ => ["HALT"]

structure Denotes (statements : List Statement) (program : Program) : Prop where
  rules : program.rules = statements.filterMap Statement.rule?
  runs : program.runs = statements.filterMap Statement.run?
  haltStates : program.haltStates = lastHaltStates statements

theorem haltStates_of (rules : List Rule) (runs : List Run) (states : List String) :
    (Program.of rules runs states).haltStates =
      match states with
      | [] => ["HALT"]
      | state :: states => state :: states := by
  cases states <;> rfl

theorem ofStatements_denoted (statements : List Statement) :
    Denotes statements (.ofStatements statements) := by
  refine ⟨?_,?_,?_⟩
  · unfold Program.ofStatements Program.of
    split <;> rfl
  · unfold Program.ofStatements Program.of
    split <;> rfl
  · rw [Program.ofStatements,haltStates_of,lastHaltStates,List.getLastD_eq_getLast?]
    cases (statements.filterMap Statement.halt?).getLast? with
    | none => rfl
    | some states => cases states <;> rfl

theorem Denotes.unique {statements : List Statement} {program program' : Program}
    (one : Denotes statements program) (other : Denotes statements program') :
    program = program' := by
  obtain ⟨rules,runs,haltStates,named⟩ := program
  obtain ⟨rules',runs',haltStates',named'⟩ := program'
  obtain ⟨sameRules,sameRuns,sameHaltStates⟩ := one
  obtain ⟨sameRules',sameRuns',sameHaltStates'⟩ := other
  simp_all

namespace Parser.Recognizes
open Cursor

theorem symbols {expected : List TokenKind} (noEnd : .eof ∉ expected) (word : .symbol ∈ expected) :
    Recognizes (Parser.symbols expected) fun tokens texts => ∃ cells closing,
      (∀ cell ∈ cells, cell.kind = .symbol) ∧ closing.kind ∈ expected ∧ closing.kind ≠ .symbol ∧
        tokens = cells ++ [closing] ∧ texts = cells.map Token.text := by
  have expect := Recognizes.expect noEnd
  intro parser texts last
  constructor
  · intro succeeds
    obtain ⟨accepted,done⟩ := succeeds
    fun_induction Parser.symbols expected parser generalizing texts with
    | case1 parser cause after failed => cases done
    | case2 parser token after found symbol cause last' failed ih => cases done
    | case3 parser token after found symbol texts' last' read ih =>
      cases done
      obtain ⟨first,taken,rfl,known⟩ := (expect parser token after.cursor).mp ⟨_,found⟩
      obtain ⟨rest,reads,cells,closing,symbols,ends,other,rfl,rfl⟩ := ih _ read
      refine ⟨_,Reads.append_iff.mpr ⟨_,taken,reads⟩,token :: cells,closing,?_,ends,other,rfl,rfl⟩
      simpa [symbol] using symbols
    | case4 parser token after found other =>
      cases done
      obtain ⟨first,taken,rfl,known⟩ := (expect parser token last).mp ⟨_,found⟩
      exact ⟨_,taken,[],token,by simp,known,other,rfl,rfl⟩
  · intro found
    obtain ⟨tokens,reads,cells,closing,symbols,ends,other,rfl,rfl⟩ := found
    induction cells generalizing parser with
    | nil =>
      obtain ⟨accepted,found⟩ := (expect parser closing last).mpr ⟨_,reads,rfl,ends⟩
      refine ⟨accepted,?_⟩
      rw [Parser.symbols]
      split <;> simp_all
    | cons cell cells ih =>
      have cellSymbol := symbols cell (by simp)
      have parted : Reads parser.cursor ([cell] ++ (cells ++ [closing])) last := reads
      obtain ⟨middle,taken,reads⟩ := Reads.append_iff.mp parted
      obtain ⟨accepted,found⟩ := (expect parser cell middle).mpr ⟨_,taken,rfl,cellSymbol ▸ word⟩
      obtain ⟨accepted',read⟩ := ih ⟨middle,accepted⟩
        (fun cell member => symbols cell (List.mem_cons_of_mem _ member)) reads
      refine ⟨accepted',?_⟩
      rw [Parser.symbols]
      split <;> simp_all

theorem rule : Recognizes Parser.rule fun tokens r => Statement.Spelled tokens (.rule r) := by
  refine (expect_bind (by decide) fun state => expect_bind (by decide) fun read =>
    expect_bind (by decide) fun write => expect_bind (by decide) fun arrow =>
    expect_bind (by decide) fun next => expect_bind (by decide) fun lineEnd => pure _).congr ?_
  intro tokens r
  simp only [List.mem_cons,List.not_mem_nil,or_false]
  constructor
  · intro found
    obtain ⟨state,_,rfl,first,read,_,rfl,second,write,_,rfl,third,arrow,_,rfl,fourth,
      next,_,rfl,fifth,lineEnd,_,rfl,sixth,rfl,rfl⟩ := found
    refine .rule first second third ?_ fifth sixth
    rcases fourth with left | right
    · simp [left,Direction.ofArrow]
    · simp [right,Direction.ofArrow]
  · intro spelled
    cases spelled with
    | @rule state read write arrow next lineEnd direction first second third fourth fifth sixth =>
      have arrowKind : arrow.kind = .leftArrow ∨ arrow.kind = .rightArrow := by
        cases kind : arrow.kind <;> simp_all [Direction.ofArrow]
      refine ⟨_,_,rfl,first,_,_,rfl,second,_,_,rfl,third,_,_,rfl,arrowKind,_,_,rfl,fifth,_,_,rfl,sixth,rfl,?_⟩
      rcases arrowKind with left | right
      · simp_all [Direction.ofArrow]
      · simp_all [Direction.ofArrow]

theorem run : Recognizes Parser.run fun tokens r => ∃ command bra cells ket state lineEnd,
    command.kind = .command ∧ bra.kind = .bra ∧ (∀ cell ∈ cells, cell.kind = .symbol) ∧
      ket.kind = .ket ∧ state.kind = .symbol ∧ lineEnd.kind = .newLine ∧
      tokens = [command,bra] ++ cells ++ [ket,state,lineEnd] ∧
      r = ⟨cells.map Token.text,state.text⟩ := by
  refine (expect_bind (by decide) fun command => expect_bind (by decide) fun bra =>
    (symbols (by decide) (by decide)).bind fun tape => expect_bind (by decide) fun state =>
    expect_bind (by decide) fun lineEnd => pure _).congr ?_
  intro tokens r
  simp only [List.mem_cons,List.not_mem_nil,or_false]
  constructor
  · intro found
    obtain ⟨command,_,rfl,first,bra,_,rfl,second,_,_,⟨cells,ket,cellSymbols,closing,other,rfl,rfl⟩,
      _,⟨state,_,rfl,fourth,lineEnd,_,rfl,fifth,rfl,rfl⟩,rfl⟩ := found
    exact ⟨command,bra,cells,ket,state,lineEnd,first,second,cellSymbols,closing.resolve_left other,
      fourth,fifth,by simp,rfl⟩
  · intro found
    obtain ⟨command,bra,cells,ket,state,lineEnd,first,second,cellSymbols,third,fourth,fifth,rfl,rfl⟩ := found
    exact ⟨command,_,rfl,first,bra,_,rfl,second,_,_,
      ⟨cells,ket,cellSymbols,.inr third,by simp [third],rfl,rfl⟩,
      _,⟨state,_,rfl,fourth,lineEnd,_,rfl,fifth,rfl,rfl⟩,by simp⟩

theorem haltStates : Recognizes Parser.haltStates fun tokens texts => ∃ command states lineEnd,
    command.kind = .command ∧ (∀ state ∈ states, state.kind = .symbol) ∧
      lineEnd.kind = .newLine ∧ tokens = [command] ++ states ++ [lineEnd] ∧
      texts = states.map Token.text := by
  refine (expect_bind (by decide) fun command => symbols (by decide) (by decide)).congr ?_
  intro tokens texts
  simp only [List.mem_cons,List.not_mem_nil,or_false]
  constructor
  · intro found
    obtain ⟨command,_,rfl,first,states,lineEnd,stateSymbols,ends,other,rfl,rfl⟩ := found
    exact ⟨command,states,lineEnd,first,stateSymbols,ends.resolve_right other,rfl,rfl⟩
  · intro found
    obtain ⟨command,states,lineEnd,first,stateSymbols,ends,rfl,rfl⟩ := found
    exact ⟨command,_,rfl,first,states,lineEnd,stateSymbols,.inl ends,by simp [ends],rfl,rfl⟩

end Parser.Recognizes

namespace Parser
open Cursor

theorem statement?_eq_none_iff {parser after : Parser} :
    statement? parser = .ok none after ↔ parser.peek.kind = .eof ∧ after = parser := by
  constructor
  · intro done
    unfold statement? at done
    simp only at done
    split at done
    · rename_i ended
      cases done
      exact ⟨ended,rfl⟩
    · obtain ⟨_,_,_,_,same⟩ := (Recognizes.rule.map _ parser _ _).mp ⟨_,done⟩
      cases same
    · cases done
    · split at done
      · obtain ⟨_,_,_,_,same⟩ := (Recognizes.run.map _ parser _ _).mp ⟨_,done⟩
        cases same
      · split at done
        · obtain ⟨_,_,_,_,same⟩ := (Recognizes.haltStates.map _ parser _ _).mp ⟨_,done⟩
          cases same
        · cases done
    · cases done
  · intro found
    obtain ⟨ended,rfl⟩ := found
    simp [statement?,ended]

theorem statement?_eq_some_iff {parser : Parser} {statement : Statement} {last : Cursor} :
    (∃ accepted, statement? parser = .ok (some statement) ⟨last,accepted⟩) ↔
      ∃ tokens, Reads parser.cursor tokens last ∧ statement.Spelled tokens := by
  constructor
  · intro succeeds
    obtain ⟨accepted,done⟩ := succeeds
    unfold statement? at done
    simp only at done
    split at done
    · cases done
    · obtain ⟨tokens,reads,r,spelled,same⟩ := (Recognizes.rule.map _ parser _ last).mp ⟨accepted,done⟩
      cases same
      exact ⟨tokens,reads,spelled⟩
    · rename_i kind
      cases done
      exact ⟨[parser.peek],Reads.single_iff.mpr ⟨rfl,by rw [kind]; decide⟩,.blank kind⟩
    · rename_i kind
      split at done
      · rename_i text
        obtain ⟨tokens,reads,r,spelled,same⟩ := (Recognizes.run.map _ parser _ last).mp ⟨accepted,done⟩
        cases same
        obtain ⟨command,bra,cells,ket,state,lineEnd,first,second,cellSymbols,third,fourth,fifth,rfl,rfl⟩ := spelled
        exact ⟨_,reads,.run first (reads.head_eq ▸ text) second cellSymbols third fourth fifth⟩
      · split at done
        · rename_i text
          obtain ⟨tokens,reads,r,spelled,same⟩ := (Recognizes.haltStates.map _ parser _ last).mp ⟨accepted,done⟩
          cases same
          obtain ⟨command,states,lineEnd,first,stateSymbols,ends,rfl,rfl⟩ := spelled
          exact ⟨_,reads,.halt first (reads.head_eq ▸ text) stateSymbols ends⟩
        · cases done
    · cases done
  · intro found
    obtain ⟨tokens,reads,spelled⟩ := found
    cases spelled with
    | blank kind =>
      obtain ⟨read,more⟩ := Reads.single_iff.mp reads
      have ahead : parser.peek.kind = .newLine := by simpa [peek,read] using kind
      exact ⟨parser.accepted,by simp [statement?,ahead,skip,read]⟩
    | rule first second third arrow fourth ends =>
      obtain ⟨accepted,done⟩ := (Recognizes.rule.map (fun rule => some (Statement.rule rule)) parser _ last).mpr
        ⟨_,reads,_,.rule first second third arrow fourth ends,rfl⟩
      have ahead : parser.peek.kind = .symbol := by rw [peek,reads.head_eq,first]
      exact ⟨accepted,by simpa [statement?,ahead] using done⟩
    | run first text bra cellSymbols ket state ends =>
      obtain ⟨accepted,done⟩ := (Recognizes.run.map (fun run => some (Statement.run run)) parser _ last).mpr
        ⟨_,reads,_,⟨_,_,_,_,_,_,first,bra,cellSymbols,ket,state,ends,rfl,rfl⟩,rfl⟩
      have ahead : parser.peek.kind = .command := by rw [peek,reads.head_eq,first]
      have wording : parser.peek.text = "#run" := by rw [peek,reads.head_eq,text]
      exact ⟨accepted,by simpa [statement?,ahead,wording] using done⟩
    | halt first text stateSymbols ends =>
      obtain ⟨accepted,done⟩ := (Recognizes.haltStates.map (fun states => some (Statement.halt states)) parser _ last).mpr
        ⟨_,reads,_,⟨_,_,_,first,stateSymbols,ends,rfl,rfl⟩,rfl⟩
      have ahead : parser.peek.kind = .command := by rw [peek,reads.head_eq,first]
      have wording : parser.peek.text = "#halt" := by rw [peek,reads.head_eq,text]
      exact ⟨accepted,by simpa [statement?,ahead,wording] using done⟩

theorem statements_recognized {parser : Parser} {read : List Statement} {last : Cursor} :
    (∃ accepted, statements parser = .ok read ⟨last,accepted⟩) ↔
      ∃ tokens, Reads parser.cursor tokens last ∧ Sentence tokens read ∧ last.token.1.kind = .eof := by
  constructor
  · intro succeeds
    obtain ⟨accepted,done⟩ := succeeds
    fun_induction statements parser generalizing read with
    | case1 parser cause after failed => cases done
    | case2 parser after ended =>
      cases done
      obtain ⟨ended,rfl⟩ := statement?_eq_none_iff.mp ended
      exact ⟨[],.done,.done,ended⟩
    | case3 parser statement after first cause last' failed ih => cases done
    | case4 parser statement after first later last' rest ih =>
      cases done
      obtain ⟨start,reads,spelled⟩ := statement?_eq_some_iff.mp ⟨after.accepted,first⟩
      obtain ⟨finish,reads',sentence,ended⟩ := ih rest
      exact ⟨start ++ finish,Reads.append_iff.mpr ⟨_,reads,reads'⟩,.more spelled sentence,ended⟩
  · intro found
    obtain ⟨tokens,reads,sentence,ended⟩ := found
    induction sentence generalizing parser with
    | done =>
      cases reads
      refine ⟨parser.accepted,?_⟩
      have none := statement?_eq_none_iff.mpr ⟨ended,rfl⟩
      rw [statements]
      split <;> simp_all
    | more spelled _ ih =>
      obtain ⟨middle,start,finish⟩ := Reads.append_iff.mp reads
      obtain ⟨accepted,first⟩ := statement?_eq_some_iff.mpr ⟨_,start,spelled⟩
      obtain ⟨accepted',rest⟩ := @ih ⟨middle,accepted⟩ finish
      refine ⟨accepted',?_⟩
      rw [statements]
      split <;> simp_all

end Parser

theorem parse_of_statements {text : List Char} {program : Program} : parse text = .ok program ↔
    ∃ statements after, Parser.statements (.start text) = .ok statements after ∧
      program = .ofStatements statements := by
  cases done : Parser.statements (.start text) with
  | ok statements after =>
    have read : Parser.program (.start text) = .ok (.ofStatements statements) after := by
      show EStateM.map _ _ _ = _
      simp [EStateM.map,done]
    simp [parse,read,eq_comm]
  | error cause after =>
    have failed : Parser.program (.start text) = .error cause after := by
      show EStateM.map _ _ _ = _
      simp [EStateM.map,done]
    simp [parse,failed]

theorem parse_eq_ok_iff {text : List Char} {program : Program} :
    parse text = .ok program ↔
      ∃ statements, Sentence (Cursor.start text).tokens.1 statements ∧ Denotes statements program := by
  constructor
  · intro parsed
    obtain ⟨statements,after,done,rfl⟩ := parse_of_statements.mp parsed
    obtain ⟨tokens,reads,sentence,ended⟩ := Parser.statements_recognized.mp ⟨after.accepted,done⟩
    have all : (Cursor.start text).tokens.1 = tokens := reads.tokens_eq ended
    exact ⟨statements,all ▸ sentence,ofStatements_denoted statements⟩
  · intro found
    obtain ⟨statements,sentence,denotes⟩ := found
    obtain ⟨last,reads,ended⟩ := Cursor.Reads.of_tokens (.start text)
    obtain ⟨accepted,done⟩ := (@Parser.statements_recognized (.start text) _ last).mpr
      ⟨_,reads,sentence,ended⟩
    exact parse_of_statements.mpr ⟨statements,_,done,denotes.unique (ofStatements_denoted statements)⟩

end TapeMachine
