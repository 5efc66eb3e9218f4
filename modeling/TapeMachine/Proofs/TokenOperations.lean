import TapeMachine.Program.Parser.Operation
import TapeMachine.Proofs.Stopping

-- Parsing by hand, told by tokens alone. All that the text contributes is the supply of its
-- tokens; where parsing stands in it is the number of tokens that have been taken.
namespace TapeMachine

namespace Parser

namespace Operation

def slots : Operation → Option (List Slot)
  | rule => some ruleSlots
  | run => some runSlots
  | haltStates => some haltSlots
  | _ => none

-- What the tokens of a whole phrase say. Which command a phrase begins with has no meaning
-- when it is asked for by itself.
inductive Gives : Operation → List Token → Found → Prop where
  | rule {tokens : List Token} {read : Rule} : Statement.Spelled tokens (.rule read) →
      Gives .rule tokens (.rule read)
  | run {command : Token} {rest : List Token} {read : Run} :
      Statement.Spelled ({ command with text := "#run" } :: rest) (.run read) →
      Gives .run (command :: rest) (.run read)
  | haltStates {command : Token} {rest : List Token} {states : List String} :
      Statement.Spelled ({ command with text := "#halt" } :: rest) (.halt states) →
      Gives .haltStates (command :: rest) (.haltStates states)

inductive Yields (supply : Supply) : Operation → Except ParseError Found → Nat → Prop where
  | peek : Yields supply .peek (.ok (.token supply.head)) 0
  | skip : Yields supply .skip (.ok .nothing) 1
  | found {kinds : List TokenKind} : supply.head.kind ∈ kinds →
      Yields supply (.expect kinds) (.ok (.token supply.head)) 1
  | missing {kinds : List TokenKind} : supply.head.kind ∉ kinds →
      Yields supply (.expect kinds) (.error (.unexpected kinds supply.head)) 1
  | given {operation : Operation} {count : Nat} {found : Found} :
      Gives operation (supply.take count) found → Yields supply operation (.ok found) count
  | broken {operation : Operation} {slots : List Slot} {count : Nat} {wanted : List TokenKind} :
      operation.slots = some slots → Filling slots supply count (some wanted) →
      Yields supply operation (.error (.unexpected wanted (supply.get count))) (count+1)
  | whole {count : Nat} {statements : List Statement} {program : Program} :
      Reading supply count statements .ended → (∀ token ∈ supply.take count, token.kind ≠ .eof) →
      Denotes statements program → Yields supply .program (.ok (.program program)) count
  | stopped {count right taken : Nat} {statements : List Statement} {fault : Fault} :
      Reading supply count statements (.fault fault right taken) →
      Yields supply .program (.error (fault.at (supply.get (count+right)))) (count+taken)

namespace Gives

variable {operation : Operation} {tokens : List Token} {found found' : Found}

theorem fills (gives : Gives operation tokens found) :
    ∃ slots, operation.slots = some slots ∧ Fills slots tokens [] := by
  cases gives with
  | rule spelled => exact ⟨ruleSlots,rfl,spelled.fills⟩
  | run spelled => exact ⟨runSlots,rfl,spelled.fills.congr (by rfl)⟩
  | haltStates spelled => exact ⟨haltSlots,rfl,spelled.fills.congr (by rfl)⟩

theorem unique (one : Gives operation tokens found) (other : Gives operation tokens found') :
    found = found' := by
  cases one with
  | rule spelled =>
    cases other with
    | rule spelled' => cases spelled.unique spelled' rfl; rfl
  | run spelled =>
    cases other with
    | run spelled' => cases spelled.unique spelled' rfl; rfl
  | haltStates spelled =>
    cases other with
    | haltStates spelled' => cases spelled.unique spelled' rfl; rfl

end Gives

theorem Yields.unique {supply : Supply} {operation : Operation}
    {outcome outcome' : Except ParseError Found} {count count' : Nat}
    (one : Yields supply operation outcome count)
    (other : Yields supply operation outcome' count') : outcome = outcome' ∧ count = count' := by
  cases one with
  | peek =>
    cases other with
    | peek => exact ⟨rfl,rfl⟩
    | given gives => cases gives
    | broken own => cases own
  | skip =>
    cases other with
    | skip => exact ⟨rfl,rfl⟩
    | given gives => cases gives
    | broken own => cases own
  | found known =>
    cases other with
    | found => exact ⟨rfl,rfl⟩
    | missing unknown => exact absurd known unknown
    | given gives => cases gives
    | broken own => cases own
  | missing unknown =>
    cases other with
    | found known => exact absurd known unknown
    | missing => exact ⟨rfl,rfl⟩
    | given gives => cases gives
    | broken own => cases own
  | given gives =>
    obtain ⟨slots,own,fills⟩ := gives.fills
    cases other with
    | given gives' =>
      obtain ⟨slots',own',fills'⟩ := gives'.fills
      cases own.symm.trans own'
      obtain ⟨rfl,_⟩ := Filling.unique (.filled fills) (.filled fills')
      exact ⟨by rw [gives.unique gives'],rfl⟩
    | broken own' broken =>
      cases own.symm.trans own'
      obtain ⟨_,nothing⟩ := Filling.unique (.filled fills) broken
      cases nothing
    | peek | skip | found | missing | whole | stopped => cases own
  | broken own broken =>
    cases other with
    | given gives' =>
      obtain ⟨slots',own',fills'⟩ := gives'.fills
      cases own.symm.trans own'
      obtain ⟨_,nothing⟩ := broken.unique (.filled fills')
      cases nothing
    | broken own' broken' =>
      cases own.symm.trans own'
      obtain ⟨rfl,same⟩ := broken.unique broken'
      cases same
      exact ⟨rfl,rfl⟩
    | peek | skip | found | missing | whole | stopped => cases own
  | whole reading _ denotes =>
    cases other with
    | whole reading' _ denotes' =>
      obtain ⟨rfl,rfl,_⟩ := reading.unique reading'
      exact ⟨by rw [denotes.unique denotes'],rfl⟩
    | stopped reading' =>
      obtain ⟨_,_,stops⟩ := reading.unique reading'
      cases stops
    | given gives => cases gives
    | broken own => cases own
  | stopped reading =>
    cases other with
    | whole reading' =>
      obtain ⟨_,_,stops⟩ := reading.unique reading'
      cases stops
    | stopped reading' =>
      obtain ⟨rfl,_,same⟩ := reading.unique reading'
      cases same
      exact ⟨rfl,rfl⟩
    | given gives => cases gives
    | broken own => cases own

end Operation

open Operation

theorem carryOut_yields {parse : Parses α} {slots : List Slot} {operation : Operation}
    {spells : List Token → α → Prop} {found : α → Found} (own : operation.slots = some slots)
    (follows : Follows parse slots) (recognizes : Recognizes parse spells)
    (means : ∀ {tokens a}, spells tokens a → Gives operation tokens (found a)) (parser : Parser) :
    ∃ count, Yields parser.cursor.supply operation (carryOut found parse parser).1 count ∧
      (carryOut found parse parser).2.cursor = parser.cursor.places.get count := by
  unfold carryOut
  have arrives := follows parser
  cases done : parse parser with
  | ok a after =>
    obtain ⟨tokens,reads,spelled⟩ := (recognizes parser a after.cursor).mp ⟨after.accepted,done⟩
    have gives := means spelled
    rw [reads.tokens_eq_take] at gives
    exact ⟨tokens.length,.given gives,reads.last_eq⟩
  | error cause after =>
    rw [done] at arrives
    cases arrives with
    | broken filling behind => exact ⟨_,.broken own filling,behind⟩

theorem perform_yields (operation : Operation) (parser : Parser) :
    ∃ count, Yields parser.cursor.supply operation (perform operation parser).1 count ∧
      (perform operation parser).2.cursor = parser.cursor.places.get count := by
  cases operation with
  | peek => exact ⟨0,.peek,rfl⟩
  | skip => exact ⟨1,.skip,rfl⟩
  | expect kinds =>
    simp only [perform,carryOut]
    cases taken : Parser.expect kinds parser with
    | ok token after =>
      obtain ⟨rfl,known,behind⟩ := expect_ok taken
      exact ⟨1,.found known,behind⟩
    | error cause after =>
      obtain ⟨rfl,unknown,behind⟩ := expect_error taken
      exact ⟨1,.missing unknown,behind⟩
  | rule => exact carryOut_yields rfl .rule .rule .rule parser
  | run =>
    refine carryOut_yields rfl .run .run ?_ parser
    rintro _ _ ⟨command,bra,cells,ket,state,lineEnd,first,second,cellSymbols,third,fourth,ends,rfl,rfl⟩
    exact .run (.run first rfl second cellSymbols third fourth ends)
  | haltStates =>
    refine carryOut_yields rfl .haltStates .haltStates ?_ parser
    rintro _ _ ⟨command,states,lineEnd,first,stateSymbols,ends,rfl,rfl⟩
    exact .haltStates (.halt first rfl stateSymbols ends)
  | program =>
    simp only [perform,carryOut,program_eq]
    have concludes := statements_concludes parser
    cases done : statements parser with
    | ok read after =>
      rw [done] at concludes
      cases concludes with
      | ended reading behind =>
        exact ⟨_,.whole reading reading.sentence.no_end (ofStatements_denoted read),behind⟩
    | error cause after =>
      rw [done] at concludes
      cases concludes with
      | fault reading behind => exact ⟨_,.stopped reading,behind⟩

inductive Performed (supply : Supply) (places : Stream' Cursor) :
    Nat → List Operation → List (Except ParseError Found × Cursor) → Prop where
  | done {taken : Nat} : Performed supply places taken [] []
  | more {taken count : Nat} {operation : Operation} {operations : List Operation}
      {outcome : Except ParseError Found} {outcomes : List (Except ParseError Found × Cursor)} :
      Yields (supply.drop taken) operation outcome count →
      Performed supply places (taken+count) operations outcomes →
      Performed supply places taken (operation :: operations)
        ((outcome,places.get (taken+count)) :: outcomes)

theorem performed_iff {cursor : Cursor} {parser : Parser} {taken : Nat} {operations : List Operation}
    {outcomes : List (Except ParseError Found × Cursor)}
    (here : parser.cursor = cursor.places.get taken) :
    Performed cursor.supply cursor.places taken operations outcomes ↔
      outcomes = (performAll operations parser).map fun outcome => (outcome.1,outcome.2.cursor) := by
  induction operations generalizing parser taken outcomes with
  | nil =>
    constructor
    · intro performed
      cases performed
      rfl
    · rintro rfl
      exact .done
  | cons operation operations ih =>
    obtain ⟨count,yields,behind⟩ := perform_yields operation parser
    rw [here,← Cursor.supply_drop] at yields
    rw [here,← Cursor.places_add] at behind
    constructor
    · intro performed
      cases performed with
      | more yields' later =>
        obtain ⟨rfl,rfl⟩ := yields.unique yields'
        rw [(ih behind).mp later,← behind]
        rfl
    · rintro rfl
      have later := (ih behind).mpr rfl
      have all := Performed.more yields later
      rwa [← behind] at all

theorem performAll_by_tokens (text : List Char) (operations : List Operation)
    (outcomes : List (Except ParseError Found × Cursor)) :
    Performed (tokenSupply text) (Cursor.start text).places 0 operations outcomes ↔
      outcomes = (performAll operations (.start text)).map
        fun outcome => (outcome.1,outcome.2.cursor) := by
  rw [← Cursor.supply_start]
  exact performed_iff rfl

example : (performAll [.program,.program,.skip,.program] (.start ['A','\n','#','x'])).map
      (fun outcome => (outcome.1,outcome.2.cursor.offset)) =
    [(.error (.unexpected [.symbol] ⟨.newLine,"\n",⟨0,1⟩⟩),2),
      (.error (.unknownCommand ⟨.command,"#x",⟨1,0⟩⟩),2),(.ok .nothing,4),
      (.ok (.program (.of [] [] [])),4)] := by decide +kernel

end Parser

end TapeMachine
