import TapeMachine.Proofs.Grammar
import TapeMachine.Proofs.Supply

-- Phrases as rows of slots that tokens fill one after the other. Every parse of a phrase takes
-- tokens for as long as they fill its slots, and stops behind the first one that does not.
namespace TapeMachine

inductive Slot where
  | one (kinds : List TokenKind)
  | symbols (kinds : List TokenKind)
  deriving DecidableEq

namespace Slot

def kinds : Slot → List TokenKind
  | one kinds => kinds
  | symbols kinds => kinds

def onward (later : List Slot) (kind : TokenKind) : Slot → List Slot
  | one _ => later
  | symbols kinds => if kind = .symbol then .symbols kinds :: later else later

theorem onward_eq (slot : Slot) (later : List Slot) (kind : TokenKind) :
    slot.onward later kind = later ∨ slot.onward later kind = slot :: later ∧ kind = .symbol := by
  cases slot with
  | one => exact .inl rfl
  | symbols kinds =>
    by_cases symbol : kind = .symbol
    · exact .inr ⟨if_pos symbol,symbol⟩
    · exact .inl (if_neg symbol)

theorem onward_append (slot : Slot) (later more : List Slot) (kind : TokenKind) :
    slot.onward (later ++ more) kind = slot.onward later kind ++ more := by
  cases slot with
  | one => rfl
  | symbols kinds =>
    simp only [onward]
    split <;> rfl

end Slot

def ruleSlots : List Slot :=
  [.one [.symbol],.one [.symbol],.one [.symbol],.one [.leftArrow,.rightArrow],.one [.symbol],.one [.newLine]]

def runSlots : List Slot :=
  [.one [.command],.one [.bra],.symbols [.symbol,.ket],.one [.symbol],.one [.newLine]]

def haltSlots : List Slot := [.one [.command],.symbols [.newLine,.symbol]]

inductive Fills : List Slot → List Token → List Slot → Prop where
  | done {slots : List Slot} : Fills slots [] slots
  | more {slot : Slot} {later left : List Slot} {token : Token} {tokens : List Token} :
      token.kind ∈ slot.kinds → Fills (slot.onward later token.kind) tokens left →
      Fills (slot :: later) (token :: tokens) left

-- How far a supply fills the slots, and the kinds that are wanted in place of the next token.
-- Where all the slots are filled, none are.
inductive Filling (slots : List Slot) (supply : Supply) : Nat → Option (List TokenKind) → Prop where
  | filled {count : Nat} : Fills slots (supply.take count) [] → Filling slots supply count none
  | broken {count : Nat} {slot : Slot} {later : List Slot} :
      Fills slots (supply.take count) (slot :: later) → (supply.get count).kind ∉ slot.kinds →
      Filling slots supply count (some slot.kinds)

namespace Fills

variable {slots middle left : List Slot} {first rest : List Token}

theorem append (begun : Fills slots first middle) (finished : Fills middle rest left) :
    Fills slots (first ++ rest) left := by
  induction begun with
  | done => exact finished
  | more wanted _ ih => exact .more wanted (ih finished)

theorem continues (begun : Fills slots first middle) (whole : Fills slots (first ++ rest) left) :
    Fills middle rest left := by
  induction begun with
  | done => exact whole
  | more _ _ ih =>
    cases whole with
    | more _ whole => exact ih whole

theorem before (later : List Slot) (fills : Fills slots first left) :
    Fills (slots ++ later) first (left ++ later) := by
  induction fills with
  | done => exact .done
  | more wanted _ ih => exact .more wanted (Slot.onward_append .. ▸ ih)

theorem nothing_eq (fills : Fills slots [] left) : slots = left := by
  cases fills
  rfl

theorem congr {tokens : List Token} (same : first.map Token.kind = tokens.map Token.kind)
    (fills : Fills slots first left) : Fills slots tokens left := by
  induction fills generalizing tokens with
  | done =>
    obtain rfl := List.map_eq_nil_iff.mp same.symm
    exact .done
  | more wanted _ ih =>
    cases tokens with
    | nil => cases same
    | cons token tokens =>
      obtain ⟨kind,rest⟩ := List.cons.inj same
      exact .more (kind ▸ wanted) (kind ▸ ih rest)

theorem known (fills : Fills slots first left) :
    ∀ token ∈ first, ∃ slot ∈ slots, token.kind ∈ slot.kinds := by
  induction fills with
  | done => simp
  | @more slot later left token tokens wanted _ ih =>
    intro other member
    rcases List.mem_cons.mp member with rfl | rest
    · exact ⟨slot,by simp,wanted⟩
    · obtain ⟨found,inside,kind⟩ := ih other rest
      rcases slot.onward_eq later token.kind with same | ⟨same,_⟩
      · exact ⟨found,List.mem_cons_of_mem _ (same ▸ inside),kind⟩
      · exact ⟨found,same ▸ inside,kind⟩

theorem kind_ne {kind : TokenKind} (fills : Fills slots first left) (more : left ≠ [])
    (noSymbol : kind ≠ .symbol) (unwanted : ∀ slot ∈ slots.dropLast, kind ∉ slot.kinds) :
    ∀ token ∈ first, token.kind ≠ kind := by
  induction fills with
  | done => simp
  | @more slot later left token tokens wanted fills ih =>
    have here : token.kind ≠ kind := by
      rintro rfl
      cases later with
      | cons next later => exact unwanted slot (by simp) wanted
      | nil =>
        rcases slot.onward_eq [] token.kind with last | ⟨_,symbol⟩
        · rw [last] at fills
          cases fills
          exact more rfl
        · exact noSymbol symbol
    have rest : ∀ other ∈ (slot.onward later token.kind).dropLast, kind ∉ other.kinds := by
      rcases slot.onward_eq later token.kind with same | ⟨same,_⟩
      · intro other member
        rw [same] at member
        cases later with
        | nil => cases member
        | cons next later => exact unwanted other (List.mem_cons_of_mem _ member)
      · rwa [same]
    exact List.forall_mem_cons.mpr ⟨here,ih more rest⟩

theorem symbols {kinds : List TokenKind} {later : List Slot} {cells : List Token} {closing : Token}
    (allSymbols : ∀ cell ∈ cells, cell.kind = .symbol) (known : .symbol ∈ kinds)
    (ends : closing.kind ∈ kinds) (other : closing.kind ≠ .symbol) :
    Fills (.symbols kinds :: later) (cells ++ [closing]) later := by
  induction cells with
  | nil =>
    have onward : (Slot.symbols kinds).onward later closing.kind = later := if_neg other
    refine .more ends ?_
    rw [onward]
    exact .done
  | cons cell cells ih =>
    have symbol := allSymbols cell (by simp)
    have onward : (Slot.symbols kinds).onward later cell.kind = .symbols kinds :: later := if_pos symbol
    refine .more (symbol ▸ known) ?_
    rw [onward]
    exact ih fun cell member => allSymbols cell (List.mem_cons_of_mem _ member)

end Fills

namespace Filling

variable {slots : List Slot} {supply : Supply} {count other : Nat}
  {wanted wanted' : Option (List TokenKind)}

theorem wanted_of_lt {left left' : List Slot} (begun : Fills slots (supply.take count) left)
    (further : Fills slots (supply.take other) left') (less : count < other) :
    ∃ slot later, left = slot :: later ∧ (supply.get count).kind ∈ slot.kinds := by
  obtain ⟨more,rfl⟩ := Nat.exists_eq_add_of_lt less
  rw [Nat.add_assoc,Stream'.take_add,Stream'.take_succ,Stream'.head_drop] at further
  cases begun.continues further with
  | more wanted _ => exact ⟨_,_,rfl,wanted⟩

theorem exists_fills (filling : Filling slots supply count wanted) :
    ∃ left, Fills slots (supply.take count) left ∧ wanted = left.head?.map Slot.kinds ∧
      ∀ slot ∈ left.head?, (supply.get count).kind ∉ slot.kinds := by
  cases filling with
  | filled fills => exact ⟨[],fills,rfl,by simp⟩
  | broken fills unwanted => exact ⟨_,fills,rfl,by simpa using unwanted⟩

theorem not_lt (one : Filling slots supply count wanted) (two : Filling slots supply other wanted') :
    ¬ count < other := by
  intro less
  obtain ⟨left,fills,_,unwanted⟩ := one.exists_fills
  obtain ⟨_,further,_,_⟩ := two.exists_fills
  obtain ⟨slot,later,rfl,known⟩ := wanted_of_lt fills further less
  exact unwanted slot rfl known

theorem unique (one : Filling slots supply count wanted) (two : Filling slots supply other wanted') :
    count = other ∧ wanted = wanted' := by
  obtain rfl : count = other := by
    have notLess := one.not_lt two
    have notGreater := two.not_lt one
    omega
  obtain ⟨left,fills,rfl,_⟩ := one.exists_fills
  obtain ⟨left',fills',rfl,_⟩ := two.exists_fills
  have same : left = left' := by
    rw [← List.append_nil (supply.take count)] at fills'
    exact (fills.continues fills').nothing_eq
  exact ⟨rfl,by rw [same]⟩

theorem before (later : List Slot) {kinds : List TokenKind}
    (filling : Filling slots supply count (some kinds)) :
    Filling (slots ++ later) supply count (some kinds) := by
  cases filling with
  | broken fills unwanted => exact .broken (fills.before later) unwanted

theorem onward {left : List Slot} (begun : Fills slots (supply.take count) left)
    (finished : Filling left (supply.drop count) other wanted) :
    Filling slots supply (count+other) wanted := by
  have all {last : List Slot} (rest : Fills left ((supply.drop count).take other) last) :
      Fills slots (supply.take (count+other)) last := by
    rw [Stream'.take_add]
    exact begun.append rest
  cases finished with
  | filled finished => exact .filled (all finished)
  | broken finished unwanted =>
    rw [Stream'.get_drop] at unwanted
    exact .broken (all finished) unwanted

theorem nothing : Filling [] supply 0 none := .filled .done

theorem unfit (slot : Slot) {later : List Slot} (unknown : supply.head.kind ∉ slot.kinds) :
    Filling (slot :: later) supply 0 (some slot.kinds) := .broken .done unknown

end Filling

namespace Parser
open Cursor

theorem expect_ok {kinds : List TokenKind} {parser after : Parser} {token : Token}
    (found : expect kinds parser = .ok token after) :
    token = parser.cursor.token.1 ∧ token.kind ∈ kinds ∧ after.cursor = parser.cursor.token.2 := by
  unfold expect at found
  dsimp only at found
  split at found
  · rename_i known
    cases found
    exact ⟨rfl,known,rfl⟩
  · cases found

theorem expect_error {kinds : List TokenKind} {parser after : Parser} {cause : ParseError}
    (failed : expect kinds parser = .error cause after) :
    cause = .unexpected kinds parser.cursor.token.1 ∧ parser.cursor.token.1.kind ∉ kinds ∧
      after.cursor = parser.cursor.token.2 := by
  unfold expect at failed
  dsimp only at failed
  split at failed
  · cases failed
  · rename_i unknown
    cases failed
    exact ⟨rfl,unknown,rfl⟩

-- Where a parse comes to that takes tokens just as far as they fill the slots. If there is one
-- that does not, the parse takes that as well and fails by it.
inductive Arrives (slots : List Slot) (parser : Parser) : EStateM.Result ParseError Parser α → Prop where
  | filled {count : Nat} {a : α} {after : Parser} : Filling slots parser.cursor.supply count none →
      after.cursor = parser.cursor.places.get count → Arrives slots parser (.ok a after)
  | broken {count : Nat} {wanted : List TokenKind} {after : Parser} :
      Filling slots parser.cursor.supply count (some wanted) →
      after.cursor = parser.cursor.places.get (count+1) →
      Arrives slots parser (.error (.unexpected wanted (parser.cursor.supply.get count)) after)

def Follows (parse : Parses α) (slots : List Slot) : Prop :=
  ∀ parser, Arrives slots parser (parse parser)

theorem Arrives.onward {slots left : List Slot} {parser middle : Parser} {count : Nat}
    {result : EStateM.Result ParseError Parser α}
    (begun : Fills slots (parser.cursor.supply.take count) left)
    (behind : middle.cursor = parser.cursor.places.get count) (rest : Arrives left middle result) :
    Arrives slots parser result := by
  cases rest with
  | filled filling last =>
    rw [behind,← supply_drop] at filling
    rw [behind,← places_add] at last
    exact .filled (filling.onward begun) last
  | @broken more wanted after filling last =>
    rw [behind,← supply_drop] at filling
    rw [behind,← places_add] at last
    rw [behind,← supply_drop,Stream'.get_drop]
    exact .broken (filling.onward begun) last

theorem Arrives.taken (slot : Slot) {later : List Slot} {parser after : Parser}
    {result : EStateM.Result ParseError Parser α} (known : parser.cursor.token.1.kind ∈ slot.kinds)
    (behind : after.cursor = parser.cursor.token.2)
    (rest : Arrives (slot.onward later parser.cursor.token.1.kind) after result) :
    Arrives (slot :: later) parser result := by
  have begun : Fills (slot :: later) (parser.cursor.supply.take 1) _ := .more known .done
  exact .onward begun behind rest

theorem Arrives.refused (slot : Slot) {later : List Slot} {parser after : Parser}
    (unknown : parser.cursor.token.1.kind ∉ slot.kinds) (behind : after.cursor = parser.cursor.token.2) :
    Arrives (slot :: later) parser
      (.error (.unexpected slot.kinds parser.cursor.token.1) after : EStateM.Result ParseError Parser α) := by
  have stopped : parser.cursor.token.1 = parser.cursor.supply.get 0 := rfl
  rw [stopped]
  exact .broken (.unfit slot unknown) behind

namespace Follows

theorem pure (a : α) : Follows (Pure.pure a) [] := fun _ => .filled .nothing rfl

theorem expect (kinds : List TokenKind) : Follows (Parser.expect kinds) [.one kinds] := by
  intro parser
  cases taken : Parser.expect kinds parser with
  | ok token after =>
    obtain ⟨rfl,known,behind⟩ := expect_ok taken
    exact .taken (.one kinds) known behind (.filled .nothing rfl)
  | error cause after =>
    obtain ⟨rfl,unknown,behind⟩ := expect_error taken
    exact .refused (.one kinds) unknown behind

theorem symbols (kinds : List TokenKind) : Follows (Parser.symbols kinds) [.symbols kinds] := by
  intro parser
  fun_induction Parser.symbols kinds parser with
  | case1 parser cause after failed =>
    obtain ⟨rfl,unknown,behind⟩ := expect_error failed
    exact .refused (.symbols kinds) unknown behind
  | case2 parser token after found symbol cause last failed ih =>
    obtain ⟨rfl,known,behind⟩ := expect_ok found
    rw [failed] at ih
    refine .taken (.symbols kinds) known behind ?_
    rwa [Slot.onward,if_pos symbol]
  | case3 parser token after found symbol texts last read ih =>
    obtain ⟨rfl,known,behind⟩ := expect_ok found
    rw [read] at ih
    refine .taken (.symbols kinds) known behind ?_
    rw [Slot.onward,if_pos symbol]
    cases ih with
    | filled filling last => exact .filled filling last
  | case4 parser token after found other =>
    obtain ⟨rfl,known,behind⟩ := expect_ok found
    refine .taken (.symbols kinds) known behind ?_
    rw [Slot.onward,if_neg other]
    exact .filled .nothing rfl

theorem bind {parse : Parses α} {next : α → Parses β} {slots later : List Slot}
    (first : Follows parse slots) (rest : ∀ a, Follows (next a) later) :
    Follows (parse >>= next) (slots ++ later) := by
  intro parser
  show Arrives _ _ (EStateM.bind parse next parser)
  unfold EStateM.bind
  have begun := first parser
  cases taken : parse parser with
  | ok a middle =>
    rw [taken] at begun
    cases begun with
    | filled begun behind =>
      cases begun with
      | filled fills => exact .onward (fills.before later) behind (rest a middle)
  | error cause after =>
    rw [taken] at begun
    cases begun with
    | broken begun behind => exact .broken (begun.before later) behind

theorem map {parse : Parses α} {slots : List Slot} (follows : Follows parse slots) (f : α → β) :
    Follows (f <$> parse) slots := by
  intro parser
  show Arrives _ _ (EStateM.map f parse parser)
  unfold EStateM.map
  have taken := follows parser
  cases done : parse parser with
  | ok a after =>
    rw [done] at taken
    cases taken with
    | filled filling behind => exact .filled filling behind
  | error cause after =>
    rw [done] at taken
    cases taken with
    | broken filling behind => exact .broken filling behind

theorem rule : Follows Parser.rule ruleSlots :=
  (expect _).bind fun _ => (expect _).bind fun _ => (expect _).bind fun _ => (expect _).bind fun _ =>
    (expect _).bind fun _ => (expect _).bind fun _ => pure _

theorem run : Follows Parser.run runSlots :=
  (expect _).bind fun _ => (expect _).bind fun _ => (symbols _).bind fun _ => (expect _).bind fun _ =>
    (expect _).bind fun _ => pure _

theorem haltStates : Follows Parser.haltStates haltSlots :=
  (expect _).bind fun _ => symbols _

end Follows
end Parser

end TapeMachine
