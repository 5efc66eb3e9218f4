import TapeMachine.Proofs.Lines

-- How far tokens are the beginning of statements. The token that an error names is the first
-- one with which no statements begin any more, and the kinds that it asks for are just those
-- with which some still would.
namespace TapeMachine

def Complete (tokens : List Token) : Prop := ∃ statements, Sentence tokens statements

def Viable (tokens : List Token) : Prop := ∃ more, Complete (tokens ++ more)

inductive Begun : List Token → List Slot → Prop where
  | part {whole rest : List Token} {first : Token} {slots left : List Slot} : Complete whole →
      slotsFrom first = some slots → Fills slots (first :: rest) left → Begun (whole ++ first :: rest) left

theorem Complete.viable {tokens : List Token} (complete : Complete tokens) : Viable tokens :=
  ⟨[],by rwa [List.append_nil]⟩

theorem Complete.append {first rest : List Token} (begun : Complete first) (finished : Complete rest) :
    Complete (first ++ rest) := by
  obtain ⟨statements,sentence⟩ := begun
  obtain ⟨later,sentence'⟩ := finished
  exact ⟨_,sentence.append sentence'⟩

theorem Viable.no_end {tokens : List Token} (viable : Viable tokens) : ∀ token ∈ tokens, token.kind ≠ .eof := by
  obtain ⟨more,statements,sentence⟩ := viable
  exact fun token member => sentence.no_end token (List.mem_append_left _ member)

namespace Fills

variable {slots later left : List Slot} {kinds : List TokenKind} {tokens : List Token}

theorem one_inv (fills : Fills (.one kinds :: later) tokens []) :
    ∃ token rest, tokens = token :: rest ∧ token.kind ∈ kinds ∧ Fills later rest [] := by
  cases fills with
  | more wanted rest => exact ⟨_,_,rfl,wanted,rest⟩

theorem one_rest {token : Token} (fills : Fills (.one kinds :: later) (token :: tokens) left) :
    Fills later tokens left := by
  cases fills with
  | more _ rest => exact rest

theorem nothing_left (fills : Fills [] tokens left) : tokens = [] := by
  cases fills
  rfl

theorem symbols_inv (fills : Fills (.symbols kinds :: later) tokens []) :
    ∃ cells closing rest, tokens = cells ++ closing :: rest ∧ (∀ cell ∈ cells, cell.kind = .symbol) ∧
      closing.kind ∈ kinds ∧ closing.kind ≠ .symbol ∧ Fills later rest [] := by
  induction tokens with
  | nil => cases fills
  | cons token tokens ih =>
    cases fills with
    | more wanted rest =>
      by_cases symbol : token.kind = .symbol
      · rw [Slot.onward,if_pos symbol] at rest
        obtain ⟨cells,closing,last,rfl,allSymbols,ends⟩ := ih rest
        exact ⟨token :: cells,closing,last,rfl,List.forall_mem_cons.mpr ⟨symbol,allSymbols⟩,ends⟩
      · rw [Slot.onward,if_neg symbol] at rest
        exact ⟨[],token,tokens,rfl,by simp,wanted,symbol,rest⟩

theorem suffix (fills : Fills slots tokens left) : left <:+ slots := by
  induction fills with
  | done => exact List.suffix_refl _
  | @more slot later _ token _ _ _ ih =>
    rcases slot.onward_eq later token.kind with same | ⟨same,_⟩
    · exact (same ▸ ih).trans (List.suffix_cons slot later)
    · exact same ▸ ih

theorem exists_tokens (closing : ∀ slot ∈ slots, ∃ kind ∈ slot.kinds, slot.onward [] kind = []) :
    ∃ tokens, Fills slots tokens [] := by
  induction slots with
  | nil => exact ⟨[],.done⟩
  | cons slot later ih =>
    obtain ⟨⟨kind,wanted,closes⟩,rest⟩ := List.forall_mem_cons.mp closing
    obtain ⟨tokens,fills⟩ := ih rest
    have onward : slot.onward later kind = later := by
      rw [← List.nil_append later,Slot.onward_append,closes]
    exact ⟨⟨kind,"",⟨0,0⟩⟩ :: tokens,.more wanted (onward.symm ▸ fills)⟩

end Fills

section

variable {token : Token} {slots : List Slot}

theorem slotsFrom_cases (begun : slotsFrom token = some slots) :
    token.kind = .newLine ∧ slots = [.one [.newLine]] ∨ token.kind = .symbol ∧ slots = ruleSlots ∨
      token.kind = .command ∧ token.text = "#run" ∧ slots = runSlots ∨
      token.kind = .command ∧ token.text = "#halt" ∧ slots = haltSlots := by
  unfold slotsFrom at begun
  split at begun
  · rename_i kind
    exact .inl ⟨kind,(Option.some.inj begun).symm⟩
  · rename_i kind
    exact .inr (.inl ⟨kind,(Option.some.inj begun).symm⟩)
  · rename_i kind
    split at begun
    · rename_i text
      exact .inr (.inr (.inl ⟨kind,text,(Option.some.inj begun).symm⟩))
    · split at begun
      · rename_i text
        exact .inr (.inr (.inr ⟨kind,text,(Option.some.inj begun).symm⟩))
      · cases begun
  · cases begun

theorem slotsFrom_wanted (begun : slotsFrom token = some slots) :
    ∃ slot later, slots = slot :: later ∧ token.kind ∈ slot.kinds := by
  rcases slotsFrom_cases begun with ⟨kind,rfl⟩ | ⟨kind,rfl⟩ | ⟨kind,_,rfl⟩ | ⟨kind,_,rfl⟩
  all_goals exact ⟨_,_,rfl,by simp [Slot.kinds,kind]⟩

-- What the slots of all statements have in common: some kind closes each of them, and they ask
-- for no kind twice and never for the end.
theorem slotsFrom_sound (begun : slotsFrom token = some slots) :
    ∀ slot ∈ slots, (∃ kind ∈ slot.kinds, slot.onward [] kind = []) ∧ slot.kinds.Nodup ∧
      .eof ∉ slot.kinds := by
  rcases slotsFrom_cases begun with ⟨_,rfl⟩ | ⟨_,rfl⟩ | ⟨_,_,rfl⟩ | ⟨_,_,rfl⟩
  all_goals decide

theorem exists_spelled_of_fills {rest : List Token} (begun : slotsFrom token = some slots)
    (fills : Fills slots (token :: rest) []) : ∃ statement, Statement.Spelled (token :: rest) statement := by
  rcases slotsFrom_cases begun with ⟨kind,rfl⟩ | ⟨kind,rfl⟩ | ⟨kind,text,rfl⟩ | ⟨kind,text,rfl⟩
  · cases fills.one_rest.nothing_left
    exact ⟨_,.blank kind⟩
  · obtain ⟨read,_,rfl,second,fills⟩ := fills.one_rest.one_inv
    obtain ⟨write,_,rfl,third,fills⟩ := fills.one_inv
    obtain ⟨arrow,_,rfl,fourth,fills⟩ := fills.one_inv
    obtain ⟨next,_,rfl,fifth,fills⟩ := fills.one_inv
    obtain ⟨lineEnd,_,rfl,sixth,fills⟩ := fills.one_inv
    cases fills.nothing_left
    simp only [List.mem_cons,List.not_mem_nil,or_false] at second third fourth fifth sixth
    have directed : ∃ direction, Direction.ofArrow arrow.kind = .ok direction := by
      rcases fourth with left | right
      · exact ⟨.left,by rw [left]; rfl⟩
      · exact ⟨.right,by rw [right]; rfl⟩
    obtain ⟨direction,arrow⟩ := directed
    exact ⟨_,.rule kind second third arrow fifth sixth⟩
  · obtain ⟨bra,_,rfl,second,fills⟩ := fills.one_rest.one_inv
    obtain ⟨cells,ket,_,rfl,cellSymbols,third,other,fills⟩ := fills.symbols_inv
    obtain ⟨state,_,rfl,fourth,fills⟩ := fills.one_inv
    obtain ⟨lineEnd,_,rfl,fifth,fills⟩ := fills.one_inv
    cases fills.nothing_left
    simp only [List.mem_cons,List.not_mem_nil,or_false] at second third fourth fifth
    have spelled := Statement.Spelled.run kind text second cellSymbols (third.resolve_left other) fourth fifth
    exact ⟨_,by simpa using spelled⟩
  · obtain ⟨states,lineEnd,_,rfl,stateSymbols,second,other,fills⟩ := fills.one_rest.symbols_inv
    cases fills.nothing_left
    simp only [List.mem_cons,List.not_mem_nil,or_false] at second
    exact ⟨_,.halt kind text stateSymbols (second.resolve_right other)⟩

end

namespace Begun

variable {tokens : List Token} {slot : Slot} {later left : List Slot}

theorem onward (begun : Begun tokens (slot :: later)) {token : Token} (wanted : token.kind ∈ slot.kinds) :
    Begun (tokens ++ [token]) (slot.onward later token.kind) := by
  cases begun with
  | part complete begins fills =>
    rw [List.append_assoc]
    exact .part complete begins (fills.append (.more wanted .done))

theorem complete (begun : Begun tokens []) : Complete tokens := by
  cases begun with
  | part whole begins fills =>
    obtain ⟨statement,spelled⟩ := exists_spelled_of_fills begins fills
    have last : Complete (_ ++ []) := ⟨[statement],.more spelled .done⟩
    rw [List.append_nil] at last
    exact whole.append last

theorem viable (begun : Begun tokens left) : Viable tokens := by
  cases begun with
  | part whole begins fills =>
    have closing : ∀ slot ∈ left, ∃ kind ∈ slot.kinds, slot.onward [] kind = [] :=
      fun slot member => (slotsFrom_sound begins slot (fills.suffix.subset member)).1
    obtain ⟨more,finished⟩ := Fills.exists_tokens closing
    refine ⟨more,?_⟩
    rw [List.append_assoc]
    exact (Begun.part whole begins (fills.append finished)).complete

theorem sound (begun : Begun tokens (slot :: later)) : slot.kinds.Nodup ∧ .eof ∉ slot.kinds := by
  cases begun with
  | part _ begins fills => exact (slotsFrom_sound begins slot (fills.suffix.subset List.mem_cons_self)).2

theorem lineEnd (begun : Begun tokens (slot :: later)) (wanted : .newLine ∈ slot.kinds) : later = [] := by
  cases begun with
  | part _ begins fills =>
    obtain ⟨filled,rfl⟩ := fills.suffix
    cases later with
    | nil => rfl
    | cons next later =>
      exact absurd wanted (slotsFrom_lineEnd begins slot (by simp))

end Begun

inductive Stall (tokens : List Token) (next : Token) : Fault → Prop where
  | opening : Complete tokens → next.kind ∉ [.eof,.newLine,.symbol,.command] →
      Stall tokens next (.unexpected [.symbol,.command])
  | command : Complete tokens → next.kind = .command → next.text ≠ "#run" → next.text ≠ "#halt" →
      Stall tokens next .unknownCommand
  | inside {slot : Slot} {later : List Slot} : Begun tokens (slot :: later) →
      next.kind ∉ slot.kinds → Stall tokens next (.unexpected slot.kinds)

section

variable {supply : Supply} {count right taken : Nat} {statements : List Statement} {fault : Fault}
  {tokens : List Token} {next : Token}

theorem Reading.stall (reading : Reading supply count statements (.fault fault right taken)) :
    Stall (supply.take (count+right)) (supply.get (count+right)) fault := by
  obtain ⟨sentence,stops⟩ := reading
  have whole : Complete (supply.take count) := ⟨statements,sentence⟩
  cases stops with
  | opening unknown =>
    rw [Stream'.head_drop] at unknown
    exact .opening whole unknown
  | command kind noRun noHalt =>
    rw [Stream'.head_drop] at kind noRun noHalt
    exact .command whole kind noRun noHalt
  | inside begins broken =>
    cases broken with
    | broken fills unwanted =>
      cases right with
      | zero =>
        obtain ⟨slot,later,rfl,wanted⟩ := slotsFrom_wanted begins
        cases fills
        exact absurd wanted unwanted
      | succ right =>
        have begun := Begun.part whole begins fills
        rw [← Stream'.take_succ,← Stream'.take_add] at begun
        rw [Stream'.get_drop] at unwanted
        exact .inside begun unwanted

theorem Stall.reading (stall : Stall tokens next fault) (rest : Supply) :
    ∃ count statements right taken, tokens.length = count+right ∧
      Reading (tokens ++ₛ Stream'.cons next rest) count statements (.fault fault right taken) := by
  cases stall with
  | opening complete unknown =>
    obtain ⟨statements,sentence⟩ := complete
    have stops : Stops (Stream'.cons next rest) _ := .opening unknown
    exact ⟨_,_,0,_,rfl,sentence.before (Reading.nil_iff.mpr ⟨rfl,stops⟩)⟩
  | command complete kind noRun noHalt =>
    obtain ⟨statements,sentence⟩ := complete
    have stops : Stops (Stream'.cons next rest) _ := .command kind noRun noHalt
    exact ⟨_,_,0,_,rfl,sentence.before (Reading.nil_iff.mpr ⟨rfl,stops⟩)⟩
  | inside begun unwanted =>
    cases begun with
    | @part whole others first _ _ complete begins fills =>
      obtain ⟨statements,sentence⟩ := complete
      have taken : ((first :: others) ++ₛ Stream'.cons next rest).take (first :: others).length =
          first :: others := by
        rw [Stream'.take_append_of_le_length _ _ _ (Nat.le_refl _),List.take_length]
      have shown : ((first :: others) ++ₛ Stream'.cons next rest).get (first :: others).length = next :=
        Stream'.get_append_length _ _
      have stops : Stops ((first :: others) ++ₛ Stream'.cons next rest) _ :=
        .inside begins (.broken (taken.symm ▸ fills) (shown.symm ▸ unwanted))
      rw [Stream'.append_append_stream]
      exact ⟨_,_,_,_,by rw [List.length_append]; rfl,sentence.before (Reading.nil_iff.mpr ⟨rfl,stops⟩)⟩

theorem Stall.viable (stall : Stall tokens next fault) : Viable tokens := by
  cases stall with
  | opening complete | command complete => exact complete.viable
  | inside begun => exact begun.viable

theorem Stall.not_ended {rest : Supply} (stall : Stall tokens next fault) :
    ¬Reading (tokens ++ₛ Stream'.cons next rest) count statements .ended := by
  intro ended
  obtain ⟨_,_,_,_,_,reading⟩ := stall.reading rest
  obtain ⟨_,_,same⟩ := reading.unique ended
  cases same

theorem Stall.not_viable (stall : Stall tokens next fault) : ¬Viable (tokens ++ [next]) := by
  intro viable
  obtain ⟨more,statements,sentence⟩ := viable
  have ended := sentence.ended (rfl : (endMark []).kind = .eof)
  rw [Stream'.append_append_stream,Stream'.append_append_stream] at ended
  exact stall.not_ended ended

theorem Begun.not_complete {slot : Slot} {later : List Slot} (begun : Begun tokens (slot :: later)) :
    ¬Complete tokens := by
  intro complete
  obtain ⟨statements,sentence⟩ := complete
  have stall : Stall tokens (endMark []) _ := .inside begun begun.sound.2
  have ended := sentence.ended (rfl : (endMark []).kind = .eof)
  rw [Stream'.const_eq] at ended
  exact stall.not_ended ended

end

def marked (text : List Char) : List Token := (Cursor.start text).tokens.1 ++ [endMark text]

theorem Cursor.supply_marked (text : List Char) :
    (start text).supply = marked text ++ₛ Stream'.const (endMark text) := by
  rw [supply_start,marked,Stream'.append_append_stream,tokenSupply]
  congr 1
  exact Stream'.const_eq _

section

variable {text : List Char} {before after : List Token} {next : Token}

theorem supply_of_marked (source : marked text = before ++ next :: after) :
    (Cursor.start text).supply = before ++ₛ Stream'.cons next (after ++ₛ Stream'.const (endMark text)) := by
  rw [Cursor.supply_marked,source,Stream'.append_append_stream,Stream'.cons_append_stream]

theorem marked_cut {index : Nat} (within : index < (marked text).length) :
    ∃ after, marked text =
      (Cursor.start text).supply.take index ++ (Cursor.start text).supply.get index :: after := by
  rw [Cursor.supply_marked,Stream'.take_append_of_le_length _ _ _ (Nat.le_of_lt within),
    Stream'.get_append_left _ _ _ within]
  refine ⟨(marked text).drop (index+1),?_⟩
  rw [← List.drop_eq_getElem_cons,List.take_append_drop]

theorem Viable.within {index : Nat} (viable : Viable ((Cursor.start text).supply.take index)) :
    index < (marked text).length := by
  apply Nat.lt_of_not_le
  intro past
  obtain ⟨more,rfl⟩ := Nat.exists_eq_add_of_le past
  have noEnd := viable.no_end (endMark text)
  rw [Cursor.supply_marked,Stream'.take_add,Stream'.take_append_of_le_length _ _ _ (Nat.le_refl _),
    List.take_length] at noEnd
  exact noEnd (by simp [marked]) rfl

theorem parse_eq_error_iff {cause : ParseError} : parse text = .error cause ↔
    ∃ before next after fault, marked text = before ++ next :: after ∧ Stall before next fault ∧
      cause = fault.at next := by
  constructor
  · intro failed
    obtain ⟨count,statements,fault,right,taken,reading,rfl⟩ := reading_of_parse_error failed
    have stall := reading.stall
    obtain ⟨after,source⟩ := marked_cut stall.viable.within
    exact ⟨_,_,after,fault,source,stall,rfl⟩
  · intro found
    obtain ⟨before,next,after,fault,source,stall,rfl⟩ := found
    obtain ⟨count,statements,right,taken,index,reading⟩ := stall.reading (after ++ₛ Stream'.const (endMark text))
    have supply := supply_of_marked source
    rw [← supply] at reading
    rw [parse_of_reading reading,Reading.outcome,← index,supply,Stream'.get_append_length]
    rfl

def Stands (text : List Char) (before : List Token) (token : Token) : Prop :=
  ∃ passed tile rest, text = passed ++ (Tile.source tile ++ rest) ∧
    Cursor.Reads (.start text) before (.behind passed (tile.source ++ rest)) ∧
    tile.Fits passed rest ∧ tile.token = token

theorem stands_of_marked (source : marked text = before ++ next :: after) : Stands text before next := by
  obtain ⟨last,reads,_⟩ := Cursor.Reads.of_tokens (.start text)
  have parted : (Cursor.start text).tokens.1 = before ++ (next :: after).dropLast := by
    rw [← List.dropLast_append_of_ne_nil (by simp),← source,marked,List.dropLast_concat]
  rw [parted] at reads
  obtain ⟨middle,reads,_⟩ := Cursor.Reads.append_iff.mp reads
  have here : middle.token.1 = next := by
    have same := congrArg (fun supply => Stream'.get supply before.length)
      (reads.supply_eq.symm.trans (supply_of_marked source))
    simp only [Stream'.get_append_length] at same
    exact same
  rw [Cursor.start_eq] at reads
  obtain ⟨passed,rest,rfl,rfl⟩ := reads.exists_passed
  obtain ⟨tile,left,rfl,fits⟩ := exists_tile passed rest
  rw [List.nil_append,fits.token_eq] at here
  exact ⟨passed,tile,left,rfl,reads,fits,here⟩

end

structure Pinpoints (before : List Token) (cause : ParseError) : Prop where
  viable : Viable before
  blocked : ¬Viable (before ++ [cause.token])
  ended : cause.token.kind = .eof → ¬Complete before
  command : (∃ token, cause = .unknownCommand token) ↔ Complete before ∧ cause.token.kind = .command ∧
    cause.token.text ≠ "#run" ∧ cause.token.text ≠ "#halt"
  opening : Complete before → ∀ expected got, cause = .unexpected expected got → expected = [.symbol,.command]
  inside : ¬Complete before → ∃ expected, cause = .unexpected expected cause.token ∧ expected.Nodup ∧
    ∀ token, Viable (before ++ [token]) ↔ token.kind ∈ expected

theorem Fault.at_token (fault : Fault) (token : Token) : (fault.at token).token = token := by
  cases fault <;> rfl

theorem Begun.viable_iff {tokens : List Token} {slot : Slot} {later : List Slot}
    (begun : Begun tokens (slot :: later)) (token : Token) :
    Viable (tokens ++ [token]) ↔ token.kind ∈ slot.kinds := by
  constructor
  · intro viable
    refine Classical.byContradiction fun unwanted => ?_
    have stall : Stall tokens token _ := .inside begun unwanted
    exact stall.not_viable viable
  · intro wanted
    exact (begun.onward wanted).viable

theorem Stall.pinpoints {tokens : List Token} {next : Token} {fault : Fault}
    (stall : Stall tokens next fault) : Pinpoints tokens (fault.at next) := by
  have viable := stall.viable
  have blocked := stall.not_viable
  cases stall with
  | opening complete unknown =>
    have noEnd : next.kind ≠ .eof := fun ended => unknown (by simp [ended])
    have noCommand : next.kind ≠ .command := fun kind => unknown (by simp [kind])
    refine ⟨viable,blocked,fun ended => absurd ended noEnd,⟨?_,?_⟩,?_,fun incomplete => absurd complete incomplete⟩
    · intro found
      obtain ⟨_,same⟩ := found
      cases same
    · intro found
      exact absurd found.2.1 noCommand
    · intro _ _ _ same
      cases same
      rfl
  | command complete kind noRun noHalt =>
    have noEnd : next.kind ≠ .eof := by rw [kind]; decide
    refine ⟨viable,blocked,fun ended => absurd ended noEnd,⟨?_,?_⟩,?_,fun incomplete => absurd complete incomplete⟩
    · exact fun _ => ⟨complete,kind,noRun,noHalt⟩
    · exact fun _ => ⟨next,rfl⟩
    · intro _ _ _ same
      cases same
  | inside begun unwanted =>
    have incomplete := begun.not_complete
    refine ⟨viable,blocked,fun _ => incomplete,⟨?_,?_⟩,fun complete => absurd complete incomplete,fun _ => ?_⟩
    · intro found
      obtain ⟨_,same⟩ := found
      cases same
    · intro found
      exact absurd found.1 incomplete
    · exact ⟨_,rfl,begun.sound.1,begun.viable_iff⟩

theorem parse_pinpoints {text : List Char} {cause : ParseError} (failed : parse text = .error cause) :
    ∃ before after, marked text = before ++ cause.token :: after ∧ Stands text before cause.token ∧
      Pinpoints before cause := by
  obtain ⟨before,next,after,fault,source,stall,rfl⟩ := parse_eq_error_iff.mp failed
  rw [fault.at_token]
  exact ⟨before,after,source,stands_of_marked source,stall.pinpoints⟩

def shortRule : List Char := ['A',' ','0','\n']

theorem parse_pinpoints_short : parse shortRule = .error (.unexpected [.symbol] ⟨.newLine,"\n",⟨0,3⟩⟩) ∧
    ∃ before after, marked shortRule = before ++ ⟨.newLine,"\n",⟨0,3⟩⟩ :: after ∧
      Stands shortRule before ⟨.newLine,"\n",⟨0,3⟩⟩ ∧
      Pinpoints before (.unexpected [.symbol] ⟨.newLine,"\n",⟨0,3⟩⟩) := by
  have tokens : marked shortRule = [⟨.symbol,"A",⟨0,0⟩⟩,⟨.symbol,"0",⟨0,2⟩⟩] ++
      ⟨.newLine,"\n",⟨0,3⟩⟩ :: [⟨.eof,"",⟨1,0⟩⟩] := by decide +kernel
  have begun : Begun ([] ++ [⟨.symbol,"A",⟨0,0⟩⟩,⟨.symbol,"0",⟨0,2⟩⟩]) (ruleSlots.drop 2) :=
    .part ⟨[],.done⟩ rfl (.more (by decide) (.more (by decide) .done))
  have failed := parse_eq_error_iff.mpr ⟨_,_,_,_,tokens,.inside begun (by decide),rfl⟩
  exact ⟨failed,parse_pinpoints failed⟩

end TapeMachine
