import TapeMachine.Proofs.Stalling

-- The line's end that is added to a text when it is read from a file. It completes the last
-- statement if it is all that the statement lacks, and otherwise it changes nothing but what
-- is found where the text ended.
namespace TapeMachine

def lastLineEnd (text : List Char) : Token := ⟨.newLine,"\n",.past text⟩

theorem Gap.lineEnd {passed after : List Char} (gap : Gap passed after) : Gap passed (after ++ ['\n']) := by
  cases after with
  | cons c after => exact gap.congr rfl
  | nil =>
    cases gap with
    | blanks blank => exact .blanks blank
    | comment blank inLine => exact .comment blank inLine (by simp [LineEnds])

theorem TokenKind.Spelled.lineEnd {kind : TokenKind} {word lexeme after : List Char}
    (spelled : kind.Spelled word lexeme after) (more : kind ≠ .eof) :
    kind.Spelled word lexeme (after ++ ['\n']) := by
  cases after with
  | cons c after => exact spelled.congr more rfl
  | nil =>
    have wordEnds : WordEnds ['\n'] := by simp [WordEnds,Wordy,marks]
    cases spelled with
    | bare some wordy noCommand noComment => exact .bare some wordy noCommand noComment wordEnds
    | command wordy => exact .command wordy wordEnds
    | quoted plain => exact .quoted plain
    | unclosed plain => exact .unclosed plain (by simp [LineEnds])
    | mark member => exact .mark member
    | dash => exact .dash (by simp)
    | less => exact .less (by simp)
    | ended => contradiction

namespace Cursor

theorem Reads.lineEnd {before text : List Char} {tokens : List Token} {last : Cursor}
    (reads : Reads (behind before text) tokens last) (ended : last.token.1.kind = .eof) :
    Reads (behind before (text ++ ['\n'])) (tokens ++ [lastLineEnd (before ++ text)])
      (behind (before ++ text ++ ['\n']) []) := by
  induction tokens generalizing before text with
  | nil =>
    obtain ⟨⟨skipped,lexeme,kind,word,position⟩,after,rfl,fits⟩ := exists_tile before text
    cases reads
    rw [fits.token_eq] at ended
    obtain rfl : kind = .eof := ended
    obtain ⟨_,rfl,rfl⟩ := fits.spelled.nothing_at_end
    have mark : (TokenKind.newLine,['\n']) ∈ marks := by simp [marks]
    have lineEnd : Tile.Fits before ⟨skipped,['\n'],lastLineEnd (before ++ skipped)⟩ [] :=
      ⟨fits.gap.lineEnd,by simpa [lastLineEnd] using TokenKind.Spelled.mark mark,rfl⟩
    have read := lineEnd.token_eq
    simp only [Tile.source,List.append_nil,← List.append_assoc] at read ⊢
    exact Reads.single_iff.mpr ⟨read,by simp [lastLineEnd]⟩
  | cons token tokens ih =>
    obtain ⟨tile,after,rfl,fits⟩ := exists_tile before text
    cases reads with
    | more more rest =>
      rw [fits.token_eq] at more rest ⊢
      have stays : tile.Fits before (after ++ ['\n']) := by
        refine ⟨?_,fits.spelled.lineEnd more,fits.position⟩
        rw [← List.append_assoc]
        exact fits.gap.lineEnd
      have read := stays.token_eq
      have later := ih rest
      rw [List.append_assoc,List.append_assoc] at later
      simp only [List.append_assoc] at read later ⊢
      exact Reads.andThen (Reads.single_iff.mpr ⟨read,more⟩) later

end Cursor

section

variable {text : List Char}

theorem tokens_lineEnd (text : List Char) :
    (Cursor.start (text ++ ['\n'])).tokens.1 = (Cursor.start text).tokens.1 ++ [lastLineEnd text] := by
  obtain ⟨last,reads,ended⟩ := Cursor.Reads.of_tokens (.start text)
  rw [Cursor.start_eq] at reads
  have read := reads.lineEnd ended
  exact read.tokens_eq (by rw [Cursor.token_nothing_left]; rfl)

theorem marked_lineEnd (text : List Char) : marked (text ++ ['\n']) =
    (Cursor.start text).tokens.1 ++ [lastLineEnd text,endMark (text ++ ['\n'])] := by
  rw [marked,tokens_lineEnd,List.append_assoc]
  rfl

theorem marked_cases {before after : List Token} {next : Token}
    (source : marked text = before ++ next :: after) :
    next = endMark text ∧ (Cursor.start text).tokens.1 = before ∨
      next.kind ≠ .eof ∧ ∃ later, (Cursor.start text).tokens.1 = before ++ next :: later := by
  rcases List.eq_nil_or_concat after with rfl | ⟨later,last,rfl⟩
  · obtain ⟨same,mark⟩ := List.append_inj' source rfl
    exact .inl ⟨(List.cons.inj mark).1.symm,same⟩
  · rw [List.concat_eq_append,← List.cons_append,← List.append_assoc] at source
    obtain ⟨same,_⟩ := List.append_inj' source rfl
    obtain ⟨last,reads,_⟩ := Cursor.Reads.of_tokens (.start text)
    exact .inr ⟨reads.no_end next (by simp [same]),later,same⟩

end

structure LineEnded (text : List Char) : Prop where
  mark : ∃ last, Cursor.Reads (.start text) (Cursor.start text).tokens.1 last ∧ last.token.1 = endMark text
  tokens : (Cursor.start (text ++ ['\n'])).tokens.1 =
    (Cursor.start text).tokens.1 ++ [⟨.newLine,"\n",(endMark text).position⟩]
  parsed : ∀ program, parse text = .ok program → parse (text ++ ['\n']) = .ok program
  within : ∀ cause, parse text = .error cause → cause.token.kind ≠ .eof →
    parse (text ++ ['\n']) = .error cause
  atEnd : ∀ cause, parse text = .error cause → cause.token.kind = .eof →
    ∃ expected, cause = .unexpected expected (endMark text) ∧
      (.newLine ∈ expected → ∃ program, parse (text ++ ['\n']) = .ok program) ∧
      (.newLine ∉ expected → parse (text ++ ['\n']) =
        .error (.unexpected expected ⟨.newLine,"\n",(endMark text).position⟩))

theorem Denotes.blank {statements : List Statement} {program : Program} (denotes : Denotes statements program) :
    Denotes (statements ++ [.blank]) program := by
  obtain ⟨rules,runs,haltStates⟩ := denotes
  have unnamed : lastHaltStates (statements ++ [.blank]) = lastHaltStates statements := by
    simp [lastHaltStates,Statement.halt?]
  exact ⟨by simp [rules,Statement.rule?],by simp [runs,Statement.run?],haltStates.trans unnamed.symm⟩

theorem Begun.complete_lineEnd {tokens : List Token} {slot : Slot} {later : List Slot} {lineEnd : Token}
    (begun : Begun tokens (slot :: later)) (kind : lineEnd.kind = .newLine) (wanted : .newLine ∈ slot.kinds) :
    Complete (tokens ++ [lineEnd]) := by
  obtain rfl := begun.lineEnd wanted
  have finished := begun.onward (kind.symm ▸ wanted)
  rcases slot.onward_eq [] lineEnd.kind with last | ⟨_,symbol⟩
  · rw [last] at finished
    exact finished.complete
  · rw [kind] at symbol
    cases symbol

section

variable {text : List Char}

theorem parse_of_complete (complete : Complete (Cursor.start text).tokens.1) : ∃ program, parse text = .ok program := by
  obtain ⟨statements,sentence⟩ := complete
  exact ⟨_,parse_eq_ok_iff.mpr ⟨statements,sentence,ofStatements_denoted statements⟩⟩

theorem endMark_stands (text : List Char) : ∃ last,
    Cursor.Reads (.start text) (Cursor.start text).tokens.1 last ∧ last.token.1 = endMark text := by
  have source : marked text = (Cursor.start text).tokens.1 ++ endMark text :: [] := rfl
  obtain ⟨passed,tile,rest,_,reads,fits,found⟩ := stands_of_marked source
  refine ⟨_,reads,?_⟩
  rw [fits.token_eq]
  exact found

theorem lineEnd_parsed {program : Program} (parsed : parse text = .ok program) :
    parse (text ++ ['\n']) = .ok program := by
  obtain ⟨statements,sentence,denotes⟩ := parse_eq_ok_iff.mp parsed
  have lineEnd : Sentence ([lastLineEnd text] ++ []) [.blank] := .more (.blank rfl) .done
  apply parse_eq_ok_iff.mpr
  refine ⟨_,?_,denotes.blank⟩
  rw [tokens_lineEnd]
  exact sentence.append lineEnd

theorem lineEnd_within {cause : ParseError} (failed : parse text = .error cause)
    (more : cause.token.kind ≠ .eof) : parse (text ++ ['\n']) = .error cause := by
  obtain ⟨before,next,after,fault,source,stall,rfl⟩ := parse_eq_error_iff.mp failed
  rw [fault.at_token] at more
  rcases marked_cases source with ⟨rfl,_⟩ | ⟨_,later,tokens⟩
  · exact absurd rfl more
  · have further : marked (text ++ ['\n']) =
        before ++ next :: (later ++ [lastLineEnd text,endMark (text ++ ['\n'])]) := by
      rw [marked_lineEnd,tokens,List.append_assoc,List.cons_append]
    exact parse_eq_error_iff.mpr ⟨_,_,_,_,further,stall,rfl⟩

-- An error at the end comes from a statement that has been begun. Its next slot takes the
-- line's end, and then it is the last one, or it does not.
theorem lineEnd_atEnd {cause : ParseError} (failed : parse text = .error cause)
    (ended : cause.token.kind = .eof) : ∃ expected, cause = .unexpected expected (endMark text) ∧
      (.newLine ∈ expected → ∃ program, parse (text ++ ['\n']) = .ok program) ∧
      (.newLine ∉ expected → parse (text ++ ['\n']) = .error (.unexpected expected (lastLineEnd text))) := by
  obtain ⟨before,next,after,fault,source,stall,rfl⟩ := parse_eq_error_iff.mp failed
  rw [fault.at_token] at ended
  rcases marked_cases source with ⟨rfl,rfl⟩ | ⟨more,_⟩
  · cases stall with
    | opening _ unknown => exact absurd (by simp [ended]) unknown
    | command _ kind => cases kind
    | inside begun unwanted =>
      refine ⟨_,rfl,?_,?_⟩
      · intro wanted
        apply parse_of_complete
        rw [tokens_lineEnd]
        exact begun.complete_lineEnd rfl wanted
      · intro unwanted
        have stall : Stall _ (lastLineEnd text) _ := .inside begun unwanted
        exact parse_eq_error_iff.mpr ⟨_,_,_,_,marked_lineEnd text,stall,rfl⟩
  · exact absurd ended more

end

theorem parse_lineEnded (text : List Char) : LineEnded text where
  mark := endMark_stands text
  tokens := tokens_lineEnd text
  parsed := fun _ => lineEnd_parsed
  within := fun _ => lineEnd_within
  atEnd := fun _ => lineEnd_atEnd

def openHalt : List Char := ['#','h','a','l','t',' ','A']

theorem parse_lineEnded_halt :
    parse openHalt = .error (.unexpected [.newLine,.symbol] ⟨.eof,"",⟨0,7⟩⟩) ∧
      ∃ program, parse (openHalt ++ ['\n']) = .ok program := by
  have tokens : marked openHalt = [⟨.command,"#halt",⟨0,0⟩⟩,⟨.symbol,"A",⟨0,6⟩⟩] ++
      ⟨.eof,"",⟨0,7⟩⟩ :: [] := by decide +kernel
  have begun : Begun ([] ++ [⟨.command,"#halt",⟨0,0⟩⟩,⟨.symbol,"A",⟨0,6⟩⟩]) (haltSlots.drop 1) :=
    .part ⟨[],.done⟩ rfl (.more (by decide) (.more (by decide) .done))
  have failed := parse_eq_error_iff.mpr ⟨_,_,_,_,tokens,.inside begun (by decide),rfl⟩
  obtain ⟨expected,same,completed,_⟩ := (parse_lineEnded openHalt).atEnd _ failed rfl
  cases same
  exact ⟨failed,completed (by decide)⟩

end TapeMachine
