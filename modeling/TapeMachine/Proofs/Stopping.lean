import TapeMachine.Proofs.Phrase

-- How far the statements of a supply of tokens go, and why they go no further. There is one
-- answer for every supply, and parsing finds it.
namespace TapeMachine

inductive Fault where
  | unexpected (expected : List TokenKind)
  | unknownCommand
  deriving DecidableEq

def Fault.at : Fault → Token → ParseError
  | unexpected expected,got => .unexpected expected got
  | unknownCommand,token => .unknownCommand token

def Statement.slots : Statement → List Slot
  | blank => [.one [.newLine]]
  | rule _ => ruleSlots
  | run _ => runSlots
  | halt _ => haltSlots

def slotsFrom (token : Token) : Option (List Slot) :=
  match token.kind with
  | .newLine => some [.one [.newLine]]
  | .symbol => some ruleSlots
  | .command =>
    if token.text = "#run" then some runSlots else if token.text = "#halt" then some haltSlots else none
  | _ => none

-- Behind a fault stand how many tokens of the statement are right and how many are taken.
inductive Stop where
  | ended
  | fault (fault : Fault) (right taken : Nat)

inductive Stops (supply : Supply) : Stop → Prop where
  | ended : supply.head.kind = .eof → Stops supply .ended
  | opening : supply.head.kind ∉ [.eof,.newLine,.symbol,.command] →
      Stops supply (.fault (.unexpected [.symbol,.command]) 0 0)
  | command : supply.head.kind = .command → supply.head.text ≠ "#run" → supply.head.text ≠ "#halt" →
      Stops supply (.fault .unknownCommand 0 0)
  | inside {slots : List Slot} {right : Nat} {wanted : List TokenKind} :
      slotsFrom supply.head = some slots → Filling slots supply right (some wanted) →
      Stops supply (.fault (.unexpected wanted) right (right+1))

structure Reading (supply : Supply) (count : Nat) (statements : List Statement) (stop : Stop) : Prop where
  sentence : Sentence (supply.take count) statements
  stops : Stops (supply.drop count) stop

namespace Statement.Spelled

theorem arrow_kind {kind : TokenKind} {direction : Direction}
    (arrow : Direction.ofArrow kind = .ok direction) : kind ∈ [.leftArrow,.rightArrow] := by
  cases kind <;> simp_all [Direction.ofArrow]

theorem fills {tokens : List Token} {statement : Statement} (spelled : statement.Spelled tokens) :
    Fills statement.slots tokens [] := by
  cases spelled with
  | blank kind => exact .more (by simp [Slot.kinds,kind]) .done
  | rule first second third fourth fifth ends =>
    exact .more (by simp [Slot.kinds,first]) (.more (by simp [Slot.kinds,second])
      (.more (by simp [Slot.kinds,third]) (.more (arrow_kind fourth)
        (.more (by simp [Slot.kinds,fifth]) (.more (by simp [Slot.kinds,ends]) .done)))))
  | @run command bra ket state lineEnd cells first _ second cellSymbols third fourth ends =>
    have tape : Fills [.symbols [.symbol,.ket],.one [.symbol],.one [.newLine]] (cells ++ [ket])
        [.one [.symbol],.one [.newLine]] :=
      .symbols cellSymbols (by simp) (by simp [third]) (by simp [third])
    have last : Fills [.one [.symbol],.one [.newLine]] [state,lineEnd] [] :=
      .more (by simp [Slot.kinds,fourth]) (.more (by simp [Slot.kinds,ends]) .done)
    have all := tape.append last
    rw [List.append_assoc] at all
    exact .more (by simp [Slot.kinds,first]) (.more (by simp [Slot.kinds,second]) all)
  | halt first _ stateSymbols ends =>
    exact .more (by simp [Slot.kinds,first])
      (.symbols stateSymbols (by simp) (by simp [ends]) (by simp [ends]))

theorem begins {tokens : List Token} {statement : Statement} (spelled : statement.Spelled tokens) :
    ∃ token rest, tokens = token :: rest ∧ slotsFrom token = some statement.slots := by
  cases spelled with
  | blank kind => exact ⟨_,_,rfl,by simp [slotsFrom,kind,slots]⟩
  | rule first => exact ⟨_,_,rfl,by simp [slotsFrom,first,slots]⟩
  | run first text => exact ⟨_,_,rfl,by simp [slotsFrom,first,text,slots]⟩
  | halt first text => exact ⟨_,_,rfl,by simp [slotsFrom,first,text,slots]⟩

theorem unique {tokens tokens' : List Token} {statement statement' : Statement}
    (one : statement.Spelled tokens) (other : statement'.Spelled tokens') (same : tokens = tokens') :
    statement = statement' := by
  cases one <;> cases other
  case run.run =>
    simp only [List.cons_append,List.nil_append,List.cons.injEq] at same
    obtain ⟨_,_,rest⟩ := same
    obtain ⟨rfl,last⟩ := List.append_inj' rest rfl
    cases last
    rfl
  all_goals simp_all

end Statement.Spelled

theorem Statement.Spelled.no_end {tokens : List Token} {statement : Statement}
    (spelled : statement.Spelled tokens) : ∀ token ∈ tokens, token.kind ≠ .eof := by
  intro token member ended
  obtain ⟨slot,inside,kind⟩ := spelled.fills.known token member
  have unwanted : ∀ slot ∈ statement.slots, .eof ∉ slot.kinds := by
    cases statement <;> simp [slots,ruleSlots,runSlots,haltSlots,Slot.kinds]
  exact unwanted slot inside (ended ▸ kind)

theorem Sentence.no_end {tokens : List Token} {statements : List Statement}
    (sentence : Sentence tokens statements) : ∀ token ∈ tokens, token.kind ≠ .eof := by
  induction sentence with
  | done => simp
  | more spelled _ ih => exact List.forall_mem_append.mpr ⟨spelled.no_end,ih⟩

section

variable {supply : Supply} {count other : Nat} {statement statement' : Statement}
  {statements : List Statement} {stop stop' : Stop}

theorem Statement.Spelled.filling (spelled : statement.Spelled (supply.take count)) :
    slotsFrom supply.head = some statement.slots ∧ Filling statement.slots supply count none := by
  obtain ⟨token,rest,same,begun⟩ := spelled.begins
  cases count with
  | zero => cases same
  | succ count =>
    rw [Stream'.take_succ] at same
    obtain ⟨rfl,_⟩ := List.cons.inj same
    exact ⟨begun,.filled spelled.fills⟩

theorem Statement.Spelled.unique_take (one : statement.Spelled (supply.take count))
    (two : statement'.Spelled (supply.take other)) : count = other ∧ statement = statement' := by
  obtain ⟨begun,filling⟩ := one.filling
  obtain ⟨begun',filling'⟩ := two.filling
  have same := Option.some.inj (begun.symm.trans begun')
  rw [← same] at filling'
  obtain ⟨rfl,_⟩ := filling.unique filling'
  exact ⟨rfl,one.unique two rfl⟩

namespace Stops

theorem not_spelled (stops : Stops supply stop) : ¬statement.Spelled (supply.take count) := by
  intro spelled
  obtain ⟨begun,filling⟩ := spelled.filling
  cases stops with
  | ended kind => simp [slotsFrom,kind] at begun
  | opening kind =>
    unfold slotsFrom at begun
    split at begun <;> simp_all
  | command kind noRun noHalt => simp [slotsFrom,kind,noRun,noHalt] at begun
  | inside begun' broken =>
    cases begun.symm.trans begun'
    obtain ⟨_,nothing⟩ := filling.unique broken
    cases nothing

theorem unique (one : Stops supply stop) (two : Stops supply stop') : stop = stop' := by
  cases one <;> cases two
  case inside.inside begun broken _ _ _ begun' broken' =>
    cases begun.symm.trans begun'
    obtain ⟨rfl,same⟩ := broken.unique broken'
    cases same
    rfl
  all_goals simp_all [slotsFrom]

end Stops

namespace Reading

theorem nil_iff : Reading supply count [] stop ↔ count = 0 ∧ Stops supply stop := by
  constructor
  · intro reading
    obtain ⟨sentence,stops⟩ := reading
    generalize all : supply.take count = tokens at sentence
    cases sentence
    obtain rfl : count = 0 := by rw [← Stream'.length_take count supply,all,List.length_nil]
    exact ⟨rfl,stops⟩
  · rintro ⟨rfl,stops⟩
    exact ⟨.done,stops⟩

theorem cons_iff : Reading supply count (statement :: statements) stop ↔
    ∃ here more, count = here+more ∧ statement.Spelled (supply.take here) ∧
      Reading (supply.drop here) more statements stop := by
  constructor
  · intro reading
    obtain ⟨sentence,stops⟩ := reading
    generalize all : supply.take count = tokens at sentence
    cases sentence with
    | @more first rest _ _ spelled sentence =>
      obtain rfl : count = first.length + rest.length := by
        rw [← Stream'.length_take count supply,all,List.length_append]
      rw [Stream'.take_add] at all
      obtain ⟨here,there⟩ := List.append_inj all (Stream'.length_take _ _)
      rw [← Stream'.drop_drop] at stops
      exact ⟨first.length,rest.length,rfl,here.symm ▸ spelled,there.symm ▸ sentence,stops⟩
  · rintro ⟨here,more,rfl,spelled,sentence,stops⟩
    rw [Stream'.drop_drop] at stops
    refine ⟨?_,stops⟩
    rw [Stream'.take_add]
    exact .more spelled sentence

theorem unique {statements' : List Statement} (one : Reading supply count statements stop)
    (two : Reading supply other statements' stop') :
    count = other ∧ statements = statements' ∧ stop = stop' := by
  induction statements generalizing supply count other statements' with
  | nil =>
    obtain ⟨rfl,stops⟩ := nil_iff.mp one
    cases statements' with
    | nil =>
      obtain ⟨rfl,stops'⟩ := nil_iff.mp two
      exact ⟨rfl,rfl,stops.unique stops'⟩
    | cons first rest =>
      obtain ⟨here,more,rfl,spelled,_⟩ := cons_iff.mp two
      exact absurd spelled stops.not_spelled
  | cons statement statements ih =>
    obtain ⟨here,more,rfl,spelled,rest⟩ := cons_iff.mp one
    cases statements' with
    | nil =>
      obtain ⟨rfl,stops⟩ := nil_iff.mp two
      exact absurd spelled stops.not_spelled
    | cons first later =>
      obtain ⟨here',more',rfl,spelled',rest'⟩ := cons_iff.mp two
      obtain ⟨rfl,rfl⟩ := spelled.unique_take spelled'
      obtain ⟨rfl,rfl,rfl⟩ := ih rest rest'
      exact ⟨rfl,rfl,rfl⟩

end Reading

end

namespace Parser
open Cursor

inductive Concludes (parser : Parser) : EStateM.Result ParseError Parser (List Statement) → Prop where
  | ended {count : Nat} {statements : List Statement} {after : Parser} :
      Reading parser.cursor.supply count statements .ended →
      after.cursor = parser.cursor.places.get count → Concludes parser (.ok statements after)
  | fault {count right taken : Nat} {statements : List Statement} {fault : Fault} {after : Parser} :
      Reading parser.cursor.supply count statements (.fault fault right taken) →
      after.cursor = parser.cursor.places.get (count+taken) →
      Concludes parser (.error (fault.at (parser.cursor.supply.get (count+right))) after)

theorem Concludes.at_once {parser after : Parser} {fault : Fault} {right taken : Nat}
    (stops : Stops parser.cursor.supply (.fault fault right taken))
    (behind : after.cursor = parser.cursor.places.get taken) :
    Concludes parser (.error (fault.at (parser.cursor.supply.get right)) after) := by
  rw [← Nat.zero_add right]
  rw [← Nat.zero_add taken] at behind
  exact .fault (Reading.nil_iff.mpr ⟨rfl,stops⟩) behind

theorem Follows.broken {parse : Parses α} {slots : List Slot} {parser after : Parser}
    {cause : ParseError} (follows : Follows parse slots) (begun : slotsFrom parser.peek = some slots)
    (failed : parse parser = .error cause after) : Concludes parser (.error cause after) := by
  have taken := follows parser
  rw [failed] at taken
  cases taken with
  | broken filling behind => exact .at_once (.inside begun filling) behind

theorem statement?_error {parser after : Parser} {cause : ParseError}
    (failed : statement? parser = .error cause after) : Concludes parser (.error cause after) := by
  unfold statement? at failed
  dsimp only at failed
  split at failed
  · cases failed
  · rename_i kind
    exact (Follows.rule.map _).broken (by simp [slotsFrom,kind]) failed
  · cases failed
  · rename_i kind
    split at failed
    · rename_i text
      exact (Follows.run.map _).broken (by simp [slotsFrom,kind,text]) failed
    · rename_i noRun
      split at failed
      · rename_i text
        exact (Follows.haltStates.map _).broken (by simp [slotsFrom,kind,text]) failed
      · rename_i noHalt
        cases failed
        exact .at_once (.command kind noRun noHalt) rfl
  · rename_i noEnd noSymbol noLineEnd noCommand
    cases failed
    have begins : parser.peek.kind ∉ [.eof,.newLine,.symbol,.command] := by
      simp only [List.mem_cons,List.not_mem_nil,or_false,not_or]
      exact ⟨noEnd,noLineEnd,noSymbol,noCommand⟩
    exact .at_once (.opening begins) rfl

theorem statement?_reading {parser after : Parser} {statement : Statement}
    (read : statement? parser = .ok (some statement) after) :
    ∃ here, after.cursor = parser.cursor.places.get here ∧
      after.cursor.supply = parser.cursor.supply.drop here ∧
      ∀ {more : Nat} {statements : List Statement} {stop : Stop},
        Reading after.cursor.supply more statements stop →
          Reading parser.cursor.supply (here+more) (statement :: statements) stop := by
  obtain ⟨tokens,reads,spelled⟩ := statement?_eq_some_iff.mp ⟨after.accepted,read⟩
  have behind := reads.last_eq
  have left : after.cursor.supply = parser.cursor.supply.drop tokens.length := by
    rw [supply_drop,← behind]
  refine ⟨tokens.length,behind,left,?_⟩
  intro more statements stop reading
  rw [left] at reading
  rw [reads.tokens_eq_take] at spelled
  exact Reading.cons_iff.mpr ⟨_,more,rfl,spelled,reading⟩

theorem statements_concludes (parser : Parser) : Concludes parser (statements parser) := by
  fun_induction statements parser with
  | case1 parser cause after failed => exact statement?_error failed
  | case2 parser after ended =>
    obtain ⟨kind,rfl⟩ := statement?_eq_none_iff.mp ended
    exact .ended (Reading.nil_iff.mpr ⟨rfl,.ended kind⟩) rfl
  | case3 parser statement after first cause last failed ih =>
    obtain ⟨here,behind,left,onward⟩ := statement?_reading first
    rw [failed] at ih
    cases ih with
    | @fault more right _ _ _ _ reading last =>
      rw [behind,← places_add,← Nat.add_assoc] at last
      have stopped : after.cursor.supply.get (more+right) = parser.cursor.supply.get (here+more+right) := by
        rw [left,Stream'.get_drop,Nat.add_assoc]
      rw [stopped]
      exact .fault (onward reading) last
  | case4 parser statement after first later last rest ih =>
    obtain ⟨here,behind,left,onward⟩ := statement?_reading first
    rw [rest] at ih
    cases ih with
    | ended reading last =>
      rw [behind,← places_add] at last
      exact .ended (onward reading) last

theorem program_eq (parser : Parser) : program parser =
    match statements parser with
    | .ok read after => .ok (.ofStatements read) after
    | .error cause after => .error cause after := by
  show EStateM.map Program.ofStatements statements parser = _
  unfold EStateM.map
  cases statements parser <;> rfl

end Parser

theorem exists_reading (text : List Char) :
    ∃ count statements stop, Reading (Cursor.start text).supply count statements stop := by
  have concludes := Parser.statements_concludes (.start text)
  cases done : Parser.statements (.start text) with
  | ok statements after =>
    rw [done] at concludes
    cases concludes with
    | ended reading _ => exact ⟨_,_,_,reading⟩
  | error cause after =>
    rw [done] at concludes
    cases concludes with
    | fault reading _ => exact ⟨_,_,_,reading⟩

def Reading.outcome (supply : Supply) (count : Nat) (statements : List Statement) :
    Stop → Except ParseError Program
  | .ended => .ok (.ofStatements statements)
  | .fault fault right _ => .error (fault.at (supply.get (count+right)))

theorem parse_of_reading {text : List Char} {count : Nat} {statements : List Statement} {stop : Stop}
    (reading : Reading (Cursor.start text).supply count statements stop) :
    parse text = Reading.outcome (Cursor.start text).supply count statements stop := by
  have concludes := Parser.statements_concludes (.start text)
  rw [parse,Parser.program_eq]
  cases done : Parser.statements (.start text) with
  | ok read after =>
    rw [done] at concludes
    cases concludes with
    | ended other _ =>
      obtain ⟨rfl,rfl,rfl⟩ := reading.unique other
      rfl
  | error cause after =>
    rw [done] at concludes
    cases concludes with
    | fault other _ =>
      obtain ⟨rfl,rfl,rfl⟩ := reading.unique other
      rfl

end TapeMachine
