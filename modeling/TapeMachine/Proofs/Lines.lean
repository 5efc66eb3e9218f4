import TapeMachine.Proofs.Likeness

-- Texts of whole lines in front of other texts. No token reaches over the end of a line, so
-- each of the texts has the tokens that it has by itself, the later one's further down.
namespace TapeMachine

def Lined (text : List Char) : Prop := ∀ c ∈ text.getLast?, c = '\n'

theorem Lined.right {first rest : List Char} (lined : Lined (first ++ rest)) : Lined rest := by
  intro c last
  refine lined c ?_
  rw [List.getLast?_append,last]
  rfl

theorem Gap.no_lineEnd {passed after : List Char} (gap : Gap passed after) : '\n' ∉ passed := by
  have noBlank {blanks : List Char} (blank : ∀ c ∈ blanks, Blank c) : '\n' ∉ blanks :=
    fun member => by simpa [Blank] using blank _ member
  cases gap with
  | blanks blank => exact noBlank blank
  | comment blank inLine => simpa using ⟨noBlank blank,fun member => inLine _ member rfl⟩

theorem Gap.congr {passed after other : List Char} (gap : Gap passed after)
    (same : other.head? = after.head?) : Gap passed other := by
  cases gap with
  | blanks blank => exact .blanks blank
  | comment blank inLine ends => exact .comment blank inLine (by rwa [LineEnds,same])

namespace TokenKind.Spelled

variable {kind : TokenKind} {text lexeme after : List Char}

theorem congr {other : List Char} (spelled : kind.Spelled text lexeme after) (more : kind ≠ .eof)
    (same : other.head? = after.head?) : kind.Spelled text lexeme other := by
  cases spelled with
  | bare some wordy noCommand noComment ends =>
    exact .bare some wordy noCommand noComment (by rwa [WordEnds,same])
  | command wordy ends => exact .command wordy (by rwa [WordEnds,same])
  | quoted plain => exact .quoted plain
  | unclosed plain ends => exact .unclosed plain (by rwa [LineEnds,same])
  | mark member => exact .mark member
  | dash noArrow => exact .dash (same ▸ noArrow)
  | less noArrow => exact .less (same ▸ noArrow)
  | ended => contradiction

theorem newLine_of_mem (spelled : kind.Spelled text lexeme after) (inside : '\n' ∈ lexeme) :
    kind = .newLine := by
  have notWordy : ¬Wordy '\n' := by simp [Wordy,marks]
  cases spelled with
  | bare _ wordy => exact absurd (wordy _ inside) notWordy
  | command wordy =>
    rcases List.mem_cons.mp inside with same | inName
    · cases same
    · exact absurd (wordy _ inName) notWordy
  | quoted plain => exact absurd rfl (plain '\n' (by simpa using inside)).2
  | unclosed plain => exact absurd rfl (plain '\n' (by simpa using inside)).2
  | mark member =>
    simp only [marks,List.mem_cons,List.not_mem_nil,Prod.mk.injEq,or_false] at member
    rcases member with ⟨_,rfl⟩ | ⟨_,rfl⟩ | ⟨_,rfl⟩ | ⟨_,rfl⟩ | ⟨rfl,_⟩
    case inr.inr.inr.inr => rfl
    all_goals simp at inside
  | dash | less | ended => simp at inside

end TokenKind.Spelled

-- A text of lines is empty, or it begins with a token that fits there whatever comes after
-- the lines. The last such token is a line's end.
theorem Lined.cut {text : List Char} (lined : Lined text) (before : List Char) :
    text = [] ∨ ∃ tile after, text = Tile.source tile ++ after ∧ Lined after ∧
      tile.token.kind ≠ .eof ∧ (∀ rest, tile.Fits before (after ++ rest)) ∧
      (after = [] → tile.token.kind = .newLine) := by
  obtain ⟨⟨skipped,lexeme,token⟩,after,rfl,fits⟩ := exists_tile before text
  obtain ⟨gap,spelled,position⟩ := fits
  dsimp only [Tile.source] at *
  by_cases ended : token.kind = .eof
  · rw [ended] at spelled
    obtain ⟨_,rfl,rfl⟩ := spelled.nothing_at_end
    left
    rw [List.append_nil,List.append_nil] at lined ⊢
    refine List.getLast?_eq_none_iff.mp (Option.eq_none_iff_forall_not_mem.mpr fun c last => ?_)
    exact gap.no_lineEnd (lined c last ▸ List.mem_of_getLast? last)
  · right
    have some := spelled.lexeme_ne_nil ended
    have last (nothing : after = []) : token.kind = .newLine := by
      subst nothing
      rw [List.append_nil] at lined
      have within := lined.right _ (List.getLast?_eq_some_getLast some)
      exact spelled.newLine_of_mem (within ▸ List.getLast_mem some)
    refine ⟨⟨skipped,lexeme,token⟩,after,rfl,lined.right,ended,fun rest => ⟨?_,?_,position⟩,last⟩
    · refine gap.congr ?_
      obtain ⟨c,rest,rfl⟩ := List.exists_cons_of_ne_nil some
      rfl
    · cases after with
      | cons c after => exact spelled.congr ended rfl
      | nil =>
        have lineEnd := last rfl
        dsimp only at spelled ⊢
        rw [lineEnd] at spelled ⊢
        cases spelled with
        | mark member => exact .mark member

inductive Firm : List Char → List Char → List Token → Prop where
  | done {before : List Char} : Firm before [] []
  | more {before after : List Char} {tile : Tile} {tokens : List Token} : tile.token.kind ≠ .eof →
      (∀ rest, tile.Fits before (after ++ rest)) → (after = [] → tile.token.kind = .newLine) →
      Firm (before ++ tile.source) after tokens → Firm before (tile.source ++ after) (tile.token :: tokens)

theorem Lined.firm {text : List Char} (lined : Lined text) (before : List Char) :
    ∃ tokens, Firm before text tokens := by
  induction size : text.length using Nat.strongRecOn generalizing before text with
  | ind length ih =>
    obtain rfl | ⟨tile,after,rfl,later,more,fits,last⟩ := lined.cut before
    · exact ⟨[],.done⟩
    · have some := List.length_pos_iff.mpr ((fits []).spelled.lexeme_ne_nil more)
      have shorter : after.length < length := by
        simp only [← size,Tile.source,List.length_append]
        omega
      obtain ⟨tokens,firm⟩ := ih _ shorter later (before ++ tile.source) rfl
      exact ⟨_,.more more fits last firm⟩

namespace Firm
open Cursor

variable {before text : List Char} {tokens : List Token}

theorem reads (firm : Firm before text tokens) (rest : List Char) :
    Reads (behind before (text ++ rest)) tokens (behind (before ++ text) rest) := by
  induction firm with
  | done => simpa using Reads.done
  | more more fits _ _ ih =>
    have read := (fits rest).token_eq
    rw [← List.append_assoc] at read
    rw [List.append_assoc] at ih
    exact Reads.andThen (Reads.single_iff.mpr ⟨read,more⟩) ih

theorem tokens_eq (firm : Firm before text tokens) : (behind before text).tokens.1 = tokens := by
  have reads := firm.reads []
  rw [List.append_nil] at reads
  exact reads.tokens_eq (by rw [token_nothing_left]; rfl)

theorem last (firm : Firm before text tokens) : ∀ token ∈ tokens.getLast?, token.kind = .newLine := by
  induction firm with
  | done => simp
  | @more _ _ tile tokens _ _ last firm ih =>
    cases tokens with
    | nil =>
      cases firm
      simpa using last rfl
    | cons token tokens => simpa using ih

end Firm

def Token.below (rows : Nat) (token : Token) : Token :=
  { token with position := ⟨token.position.row + rows,token.position.column⟩ }

def ParseError.below (rows : Nat) : ParseError → ParseError
  | unexpected expected got => .unexpected expected (got.below rows)
  | unknownCommand token => .unknownCommand (token.below rows)

theorem Lined.past_append {above : List Char} (lined : Lined above) (text : List Char) :
    Position.past (above ++ text) =
      ⟨(Position.past text).row + above.count '\n',(Position.past text).column⟩ := by
  have stops : above.reverse.takeWhile (· ≠ '\n') = [] := by
    cases shape : above.reverse with
    | nil => rfl
    | cons c rest =>
      have lineEnd := lined c (by rw [← List.head?_reverse,shape]; rfl)
      simp [lineEnd]
  have column : (above ++ text).reverse.takeWhile (· ≠ '\n') = text.reverse.takeWhile (· ≠ '\n') := by
    rw [List.reverse_append,List.takeWhile_append]
    split
    · rename_i whole
      rw [stops,List.append_nil]
      exact ((List.takeWhile_prefix _).eq_of_length whole).symm
    · rfl
  simp only [Position.past,List.count_append,column,Nat.add_comm]

theorem Tile.Fits.below {above before after : List Char} {tile : Tile} (lined : Lined above)
    (fits : tile.Fits before after) :
    Tile.Fits (above ++ before) { tile with token := tile.token.below (above.count '\n') } after := by
  refine ⟨fits.gap,fits.spelled,?_⟩
  rw [List.append_assoc,lined.past_append,← fits.position]
  rfl

namespace Cursor

theorem supply_below {above : List Char} (lined : Lined above) (before text : List Char) :
    (behind (above ++ before) text).supply =
      (behind before text).supply.map (Token.below (above.count '\n')) := by
  refine Stream'.ext fun index => ?_
  rw [Stream'.get_map]
  induction index generalizing before text with
  | zero =>
    obtain ⟨tile,after,rfl,fits⟩ := exists_tile before text
    exact (congrArg Prod.fst (fits.below lined).token_eq).trans
      (congrArg (fun read : Token × Cursor => read.1.below _) fits.token_eq).symm
  | succ index ih =>
    obtain ⟨tile,after,rfl,fits⟩ := exists_tile before text
    have lower : (behind (above ++ before) (tile.source ++ after)).token.2 =
        behind (above ++ before ++ tile.source) after := congrArg Prod.snd (fits.below lined).token_eq
    rw [Stream'.get_succ,Stream'.get_succ,supply_tail,supply_tail,lower,fits.token_eq,List.append_assoc,ih]

theorem supply_lines {text : List Char} (lined : Lined text) (rest : List Char) :
    (start (text ++ rest)).supply = (start text).tokens.1 ++ₛ
      (start rest).supply.map (Token.below (text.count '\n')) := by
  obtain ⟨tokens,firm⟩ := lined.firm []
  have below := supply_below lined [] rest
  rw [List.append_nil] at below
  rw [start_eq,start_eq,start_eq,(firm.reads rest).supply_eq,firm.tokens_eq,← below]
  rfl

end Cursor

theorem Sentence.before {tokens : List Token} {first statements : List Statement} {supply : Supply}
    {count : Nat} {stop : Stop} (sentence : Sentence tokens first)
    (reading : Reading supply count statements stop) :
    Reading (tokens ++ₛ supply) (tokens.length+count) (first ++ statements) stop := by
  have here : (tokens ++ₛ supply).take tokens.length = tokens := by
    rw [Stream'.take_append_of_le_length _ _ _ (Nat.le_refl _),List.take_length]
  refine ⟨?_,?_⟩
  · rw [Stream'.take_add,here,Stream'.drop_append_stream]
    exact sentence.append reading.sentence
  · rw [← Stream'.drop_drop,Stream'.drop_append_stream]
    exact reading.stops

theorem Sentence.ended {tokens : List Token} {mark : Token} {statements : List Statement}
    (sentence : Sentence tokens statements) (last : mark.kind = .eof) :
    Reading (tokens ++ₛ Stream'.const mark) tokens.length statements .ended := by
  have nothing : Reading (Stream'.const mark) 0 [] .ended := Reading.nil_iff.mpr ⟨rfl,.ended last⟩
  have whole := sentence.before nothing
  rwa [List.append_nil] at whole

theorem Sentence.reading {text : List Char} {statements : List Statement}
    (sentence : Sentence (Cursor.start text).tokens.1 statements) :
    Reading (Cursor.start text).supply (Cursor.start text).tokens.1.length statements .ended := by
  rw [Cursor.supply_start]
  exact sentence.ended rfl

theorem slotsFrom_lineEnd {token : Token} {slots : List Slot} (begun : slotsFrom token = some slots) :
    ∀ slot ∈ slots.dropLast, .newLine ∉ slot.kinds := by
  unfold slotsFrom at begun
  split at begun
  · cases begun
    decide
  · cases begun
    decide
  · split at begun
    · cases begun
      decide
    · split at begun <;> cases begun
      decide
  · cases begun

-- Statements break off before the last line's end is behind them, so no fault is found at the
-- end mark behind it.
theorem Reading.within {tokens : List Token} {mark : Token} {count right taken : Nat}
    {statements : List Statement} {fault : Fault}
    (last : ∀ token ∈ tokens.getLast?, token.kind = .newLine) (ended : mark.kind = .eof)
    (reading : Reading (tokens ++ₛ Stream'.const mark) count statements (.fault fault right taken)) :
    count+right < tokens.length := by
  have begins : count < tokens.length := by
    refine Nat.lt_of_not_le fun past => ?_
    obtain ⟨more,rfl⟩ := Nat.exists_eq_add_of_le past
    have kind : ((tokens ++ₛ Stream'.const mark).drop (tokens.length+more)).head.kind = .eof := by
      rw [Stream'.head_drop,Stream'.get_append_right,Stream'.get_const,ended]
    cases reading.stops.unique (.ended kind)
  cases reading.stops with
  | opening | command => exact begins
  | inside begun broken =>
    cases broken with
    | broken fills _ =>
      refine Nat.lt_of_not_le fun past => ?_
      have noLineEnd := fills.kind_ne (by simp) (by decide) (slotsFrom_lineEnd begun)
      have final : tokens ≠ [] := List.ne_nil_of_length_pos (Nat.zero_lt_of_lt begins)
      refine noLineEnd (tokens.getLast final) ?_ (last _ (List.getLast?_eq_some_getLast final))
      have taken : (((tokens ++ₛ Stream'.const mark).drop count).take right)[tokens.length-1-count]? =
          some (tokens.getLast final) := by
        rw [Stream'.getElem?_take (by omega),Stream'.get_drop,
          show count+(tokens.length-1-count) = tokens.length-1 by omega,
          Stream'.get_append_left _ _ _ (by omega),List.getLast_eq_getElem]
      exact List.mem_of_getElem? taken

structure Joins (first second : Program) (named : Prop) (program : Program) : Prop where
  rules : program.rules = first.rules ++ second.rules
  runs : program.runs = first.runs ++ second.runs
  latest : named → program.haltStates = second.haltStates
  remaining : ¬named → program.haltStates = first.haltStates

theorem Denotes.joins {first later : List Statement} {program second : Program}
    (one : Denotes first program) (other : Denotes later second) :
    Joins program second (∃ states, Statement.halt states ∈ later) (.ofStatements (first ++ later)) := by
  obtain ⟨rules,runs,haltStates⟩ := ofStatements_denoted (first ++ later)
  refine ⟨?_,?_,?_,?_⟩
  · rw [rules,one.rules,other.rules,List.filterMap_append]
  · rw [runs,one.runs,other.runs,List.filterMap_append]
  · rintro ⟨states,member⟩
    have named : later.filterMap Statement.halt? ≠ [] :=
      List.ne_nil_of_mem (List.mem_filterMap.mpr ⟨_,member,rfl⟩)
    rw [haltStates,other.haltStates,lastHaltStates,lastHaltStates,List.filterMap_append,
      List.getLast?_append,Option.or_of_isSome (by simpa using List.getLast?_isSome.mpr named)]
  · intro unnamed
    have nothing : later.filterMap Statement.halt? = [] := by
      refine List.filterMap_eq_nil_iff.mpr fun statement member => ?_
      cases statement with
      | halt states => exact absurd ⟨states,member⟩ unnamed
      | _ => rfl
    rw [haltStates,one.haltStates,lastHaltStates,lastHaltStates,List.filterMap_append,nothing,List.append_nil]

def NamesHaltStates (text : List Char) : Prop :=
  ∃ statements states, Sentence (Cursor.start text).tokens.1 statements ∧ Statement.halt states ∈ statements

theorem Fault.at_below (fault : Fault) (token : Token) (rows : Nat) :
    (fault.at token).below rows = fault.at (token.below rows) := by
  cases fault <;> rfl

section

variable {text rest : List Char} {count : Nat} {first statements : List Statement} {stop : Stop}

theorem Lined.reading (lined : Lined text) (sentence : Sentence (Cursor.start text).tokens.1 first)
    (reading : Reading (Cursor.start rest).supply count statements stop) :
    Reading (Cursor.start (text ++ rest)).supply ((Cursor.start text).tokens.1.length+count)
      (first ++ statements) stop := by
  rw [Cursor.supply_lines lined rest]
  exact sentence.before (reading.congr fun _ _ => rfl)

theorem Lined.reading_fault {fault : Fault} {right taken : Nat} (lined : Lined text)
    (reading : Reading (Cursor.start text).supply count statements (.fault fault right taken)) :
    (Cursor.start (text ++ rest)).supply.get (count+right) =
        (Cursor.start text).supply.get (count+right) ∧
      Reading (Cursor.start (text ++ rest)).supply count statements (.fault fault right taken) := by
  obtain ⟨tokens,firm⟩ := lined.firm []
  have last := firm.last
  rw [← firm.tokens_eq,← Cursor.start_eq] at last
  rw [Cursor.supply_start,tokenSupply] at reading
  rw [Cursor.supply_lines lined rest,Cursor.supply_start text,tokenSupply]
  have within := reading.within last rfl
  have same : ∀ index ≤ count+right,
      ((Cursor.start text).tokens.1 ++ₛ
        (Cursor.start rest).supply.map (Token.below (text.count '\n'))).get index =
      ((Cursor.start text).tokens.1 ++ₛ Stream'.const (endMark text)).get index := by
    intro index upTo
    rw [Stream'.get_append_left _ _ _ (by omega),Stream'.get_append_left _ _ _ (by omega)]
  exact ⟨same _ (Nat.le_refl _),reading.congr fun index upTo => congrArg Token.gist (same index upTo)⟩

end

theorem reading_of_parse_error {text : List Char} {cause : ParseError} (failed : parse text = .error cause) :
    ∃ count statements fault right taken,
      Reading (Cursor.start text).supply count statements (.fault fault right taken) ∧
        cause = fault.at ((Cursor.start text).supply.get (count+right)) := by
  obtain ⟨count,statements,stop,reading⟩ := exists_reading text
  have parsed := parse_of_reading reading
  rw [failed] at parsed
  cases stop with
  | ended => cases parsed
  | fault fault right taken => exact ⟨count,statements,fault,right,taken,reading,Except.error.inj parsed⟩

theorem parse_lines {text : List Char} (lined : Lined text) (rest : List Char) :
    (∀ first second, parse text = .ok first → parse rest = .ok second →
      ∃ program, parse (text ++ rest) = .ok program ∧
        Joins first second (NamesHaltStates rest) program) ∧
    (∀ first cause, parse text = .ok first → parse rest = .error cause →
      parse (text ++ rest) = .error (cause.below (text.count '\n'))) ∧
    ∀ cause, parse text = .error cause → parse (text ++ rest) = .error cause := by
  refine ⟨?_,?_,?_⟩
  · intro first second parsed parsed'
    obtain ⟨statements,sentence,denotes⟩ := parse_eq_ok_iff.mp parsed
    obtain ⟨later,sentence',denotes'⟩ := parse_eq_ok_iff.mp parsed'
    have reading := sentence'.reading
    have named : NamesHaltStates rest ↔ ∃ states, Statement.halt states ∈ later := by
      constructor
      · rintro ⟨other,states,spelled,member⟩
        obtain ⟨_,rfl,_⟩ := reading.unique spelled.reading
        exact ⟨states,member⟩
      · rintro ⟨states,member⟩
        exact ⟨later,states,sentence',member⟩
    refine ⟨_,parse_of_reading (lined.reading sentence reading),?_⟩
    rw [named]
    exact denotes.joins denotes'
  · intro first cause parsed failed
    obtain ⟨statements,sentence,_⟩ := parse_eq_ok_iff.mp parsed
    obtain ⟨count,later,fault,right,taken,reading,rfl⟩ := reading_of_parse_error failed
    rw [parse_of_reading (lined.reading sentence reading),Fault.at_below,Reading.outcome,
      Cursor.supply_lines lined rest,Nat.add_assoc,Stream'.get_append_right,Stream'.get_map]
  · intro cause failed
    obtain ⟨count,statements,fault,right,taken,reading,rfl⟩ := reading_of_parse_error failed
    obtain ⟨same,reading⟩ := lined.reading_fault reading
    rw [parse_of_reading reading,Reading.outcome,same]

def halting : List Char := ['#','h','a','l','t',' ','A','\n']

theorem halting_parsed : parse halting = .ok (.of [] [] ["A"]) := by
  have tokens : (Cursor.start halting).tokens.1 =
      [⟨.command,"#halt",⟨0,0⟩⟩] ++ [⟨.symbol,"A",⟨0,6⟩⟩] ++ [⟨.newLine,"\n",⟨0,7⟩⟩] ++ [] := by decide +kernel
  refine parse_eq_ok_iff.mpr ⟨[.halt ["A"]],?_,⟨rfl,rfl,rfl⟩⟩
  rw [tokens]
  exact .more (.halt rfl rfl (by simp) rfl) .done

theorem parse_lines_halting : Lined halting ∧ Lined ['-','\n'] ∧
    (∃ program, parse (halting ++ halting) = .ok program ∧
      Joins (.of [] [] ["A"]) (.of [] [] ["A"]) (NamesHaltStates halting) program) ∧
    parse (halting ++ ['-']) = .error (.unexpected [.symbol,.command] ⟨.unknown,"-",⟨1,0⟩⟩) ∧
    parse (['-','\n'] ++ halting) = .error (.unexpected [.symbol,.command] ⟨.unknown,"-",⟨0,0⟩⟩) := by
  have lined : Lined halting := by simp [Lined,halting]
  have dashed : Lined ['-','\n'] := by simp [Lined]
  have stray : parse ['-'] = .error (.unexpected [.symbol,.command] ⟨.unknown,"-",⟨0,0⟩⟩) :=
    parse_of_reading (Reading.nil_iff.mpr ⟨rfl,.opening (by decide)⟩)
  have strayLine : parse ['-','\n'] = .error (.unexpected [.symbol,.command] ⟨.unknown,"-",⟨0,0⟩⟩) :=
    parse_of_reading (Reading.nil_iff.mpr ⟨rfl,.opening (by decide)⟩)
  exact ⟨lined,dashed,(parse_lines lined halting).1 _ _ halting_parsed halting_parsed,
    (parse_lines lined ['-']).2.1 _ _ halting_parsed stray,(parse_lines dashed halting).2.2 _ strayLine⟩

end TapeMachine
