import Mathlib.Logic.Relation
import TapeMachine.Proofs.Lines

-- Blanks and remarks between tokens. A text that has been laid out in another way has the same
-- tokens on the same lines, and so it is the same program or has the same error.
namespace TapeMachine

-- One place at which a text has been given more room: where reading comes by on its way, at a
-- line's end, and there with a remark if no quotation is open on the line.
inductive Insertion : List Char → List Char → Prop where
  | ahead {before rest blanks : List Char} {tokens : List Token} :
      Cursor.Reads (.start (before ++ rest)) tokens (.behind before rest) → (∀ c ∈ blanks, Blank c) →
      Insertion (before ++ rest) (before ++ (blanks ++ rest))
  | trailing {before after blanks : List Char} : (∀ c ∈ blanks, Blank c) → LineEnds after →
      Insertion (before ++ after) (before ++ (blanks ++ after))
  | remark {before after blanks remark : List Char} : blanks ≠ [] → (∀ c ∈ blanks, Blank c) →
      (∀ c ∈ remark, c ≠ '\n') → LineEnds after →
      (∀ token ∈ (Cursor.start (before ++ after)).tokens.1,
        token.position.row = (Position.past before).row → token.kind ≠ .unclosed) →
      Insertion (before ++ after) (before ++ (blanks ++ '/' :: '/' :: remark ++ after))

inductive Relaid : List Char → List Char → Prop where
  | same {text : List Char} : Relaid text text
  | token {kind : TokenKind} {passed passed' word word' lexeme lexeme' after after' : List Char} :
      Gap passed (lexeme ++ after) → kind.Spelled word lexeme after →
      Gap passed' (lexeme' ++ after') → kind.Spelled word' lexeme' after' →
      (kind ≠ .unclosed → word = word') → Relaid after after' →
      Relaid (passed ++ (lexeme ++ after)) (passed' ++ (lexeme' ++ after'))

structure Token.Alike (token other : Token) : Prop where
  gist : token.gist = other.gist
  row : token.position.row = other.position.row

namespace Gap

variable {passed after : List Char}

theorem behind_blanks {blanks : List Char} (blank : ∀ c ∈ blanks, Blank c) (gap : Gap passed after) :
    Gap (blanks ++ passed) after := by
  cases gap with
  | blanks blank' => exact .blanks (List.forall_mem_append.mpr ⟨blank,blank'⟩)
  | comment blank' inLine ends =>
    rw [← List.append_assoc]
    exact .comment (List.forall_mem_append.mpr ⟨blank,blank'⟩) inLine ends

theorem extend {filler rest : List Char} (gap : Gap passed rest) (more : Gap filler after)
    (ends : LineEnds after) : Gap (passed ++ filler) after := by
  cases gap with
  | blanks blank => exact more.behind_blanks blank
  | comment blank inLine =>
    have onward : ∀ c ∈ filler, c ≠ '\n' := fun c member same => more.no_lineEnd (same ▸ member)
    rw [List.append_assoc]
    exact .comment blank (List.forall_mem_append.mpr ⟨inLine,onward⟩) ends

end Gap

namespace TokenKind.Spelled

variable {kind : TokenKind} {word lexeme after : List Char}

theorem lexeme_of_newLine (spelled : TokenKind.newLine.Spelled word lexeme after) : lexeme = ['\n'] := by
  cases spelled with
  | mark member => simpa [marks] using member

theorem count_lineEnd (spelled : kind.Spelled word lexeme after) :
    lexeme.count '\n' = if kind = .newLine then 1 else 0 := by
  split
  · rename_i lineEnd
    subst lineEnd
    rw [spelled.lexeme_of_newLine]
    rfl
  · rename_i other
    exact List.count_eq_zero.mpr fun inside => other (spelled.newLine_of_mem inside)

theorem apart {other : List Char} (spelled : kind.Spelled word lexeme after) (more : kind ≠ .eof)
    (closed : kind ≠ .unclosed) (blank : ∀ c ∈ other.head?, Blank c) : kind.Spelled word lexeme other := by
  have ends : WordEnds other := fun c first wordy => wordy.1 (blank c first)
  have noArrow {c : Char} (visible : ¬Blank c) : other.head? ≠ some c := fun first => visible (blank c first)
  cases spelled with
  | bare some wordy noCommand noComment => exact .bare some wordy noCommand noComment ends
  | command wordy => exact .command wordy ends
  | quoted plain => exact .quoted plain
  | unclosed | ended => contradiction
  | mark member => exact .mark member
  | dash => exact .dash (noArrow (by simp [Blank]))
  | less => exact .less (noArrow (by simp [Blank]))

end TokenKind.Spelled

theorem Cursor.token_spelled (before : List Char) {kind : TokenKind} {passed word lexeme after : List Char}
    (gap : Gap passed (lexeme ++ after)) (spelled : kind.Spelled word lexeme after) :
    (behind before (passed ++ (lexeme ++ after))).token =
      (⟨kind,String.ofList word,.past (before ++ passed)⟩,behind (before ++ (passed ++ lexeme)) after) := by
  have fits : Tile.Fits before ⟨passed,lexeme,kind,String.ofList word,.past (before ++ passed)⟩ after :=
    ⟨gap,by simpa using spelled,rfl⟩
  have read := fits.token_eq
  rwa [Tile.source,List.append_assoc] at read

namespace Relaid

variable {text text' : List Char}

theorem cut (relaid : Relaid text text') : ∃ kind passed passed' word word' lexeme lexeme' after after',
    text = passed ++ (lexeme ++ after) ∧ text' = passed' ++ (lexeme' ++ after') ∧
      Gap passed (lexeme ++ after) ∧ TokenKind.Spelled kind word lexeme after ∧
      Gap passed' (lexeme' ++ after') ∧ TokenKind.Spelled kind word' lexeme' after' ∧
      (kind ≠ .unclosed → word = word') ∧ Relaid after after' := by
  cases relaid with
  | token gap spelled gap' spelled' words later =>
    exact ⟨_,_,_,_,_,_,_,_,_,rfl,rfl,gap,spelled,gap',spelled',words,later⟩
  | same =>
    obtain ⟨passed,rest,rfl,gap,begins⟩ := exists_gap text
    obtain ⟨kind,word,lexeme,after,rfl,spelled⟩ := exists_spelled begins
    exact ⟨_,_,_,_,_,_,_,_,_,rfl,rfl,gap,spelled,gap,spelled,fun _ => rfl,.same⟩

theorem next {before before' : List Char} (relaid : Relaid text text')
    (rows : before.count '\n' = before'.count '\n') :
    Token.Alike (Cursor.behind before text).token.1 (Cursor.behind before' text').token.1 ∧
      ∃ taken taken' after after', Relaid after after' ∧
        (before ++ taken).count '\n' = (before' ++ taken').count '\n' ∧
        (Cursor.behind before text).token.2 = .behind (before ++ taken) after ∧
        (Cursor.behind before' text').token.2 = .behind (before' ++ taken') after' := by
  obtain ⟨kind,passed,passed',word,word',lexeme,lexeme',after,after',rfl,rfl,gap,spelled,gap',spelled',
    words,later⟩ := relaid.cut
  have nothing := List.count_eq_zero.mpr gap.no_lineEnd
  have nothing' := List.count_eq_zero.mpr gap'.no_lineEnd
  rw [Cursor.token_spelled before gap spelled,Cursor.token_spelled before' gap' spelled']
  refine ⟨⟨?_,?_⟩,passed ++ lexeme,passed' ++ lexeme',after,after',later,?_,rfl,rfl⟩
  · by_cases closed : kind = .unclosed
    · simp [Token.gist,closed]
    · rw [words closed]
      rfl
  · simp [Position.past,rows,nothing,nothing']
  · simp only [List.count_append,rows,nothing,nothing',spelled.count_lineEnd,spelled'.count_lineEnd]

theorem alike {before before' : List Char} (relaid : Relaid text text')
    (rows : before.count '\n' = before'.count '\n') (index : Nat) :
    ((Cursor.behind before text).supply.get index).Alike ((Cursor.behind before' text').supply.get index) := by
  induction index generalizing before before' text text' with
  | zero => exact (relaid.next rows).1
  | succ index ih =>
    obtain ⟨_,taken,taken',after,after',later,rows,left,left'⟩ := relaid.next rows
    rw [Stream'.get_succ,Stream'.get_succ,Cursor.supply_tail,Cursor.supply_tail,left,left']
    exact ih later rows

theorem quotation {passed body blanks after : List Char} (gap : Gap passed ('\'' :: body ++ after))
    (plain : Plain body) (blank : ∀ c ∈ blanks, Blank c) (ends : LineEnds after) :
    Relaid (passed ++ ('\'' :: body ++ after)) (passed ++ ('\'' :: body ++ (blanks ++ after))) := by
  have noMark {c : Char} (space : Blank c) : c ≠ '\'' ∧ c ≠ '\n' := by
    constructor <;> rintro rfl <;> simp [Blank] at space
  have wider : Plain (body ++ blanks) :=
    List.forall_mem_append.mpr ⟨plain,fun c member => noMark (blank c member)⟩
  rw [← List.append_assoc ('\'' :: body)]
  exact .token gap (.unclosed plain ends) (gap.congr rfl) (.unclosed wider ends)
    (fun closed => absurd rfl closed) .same

-- A token stays where it is in front of a text that goes on differently. Where the difference
-- comes next, an open quotation may take it up.
theorem behind_tile {before passed rest filler : List Char} {tile : Tile}
    (fits : tile.Fits before (passed ++ rest)) (more : tile.token.kind ≠ .eof)
    (blank : ∀ c ∈ filler.head?, Blank c)
    (quoted : tile.token.kind = .unclosed → passed = [] → ∀ c ∈ filler, Blank c)
    (later : Relaid (passed ++ rest) (passed ++ (filler ++ rest))) :
    Relaid (tile.source ++ (passed ++ rest)) (tile.source ++ (passed ++ (filler ++ rest))) := by
  obtain ⟨skipped,lexeme,token⟩ := tile
  obtain ⟨gap,spelled,_⟩ := fits
  dsimp only [Tile.source] at *
  obtain ⟨first,others,rfl⟩ := List.exists_cons_of_ne_nil (spelled.lexeme_ne_nil more)
  rw [List.append_assoc,List.append_assoc]
  cases filler with
  | nil => exact .same
  | cons c filler =>
    cases passed with
    | cons d passed => exact .token gap spelled (gap.congr rfl) (spelled.congr more rfl) (fun _ => rfl) later
    | nil =>
      by_cases closed : token.kind = .unclosed
      · have blanks := quoted closed rfl
        generalize token.kind = kind at closed spelled
        subst closed
        generalize token.text.toList = word at spelled
        cases spelled with
        | mark member => simp [marks] at member
        | unclosed plain ends => exact quotation gap plain blanks ends
      · exact .token gap spelled (gap.congr rfl) (spelled.apart more closed blank) (fun _ => rfl) later

theorem ahead {before text blanks : List Char} {tokens : List Token} {last : Cursor}
    (reads : Cursor.Reads (.behind before text) tokens last) (blank : ∀ c ∈ blanks, Blank c) :
    ∃ passed rest, last = .behind (before ++ passed) rest ∧ text = passed ++ rest ∧
      Relaid (passed ++ rest) (passed ++ (blanks ++ rest)) := by
  induction tokens generalizing before text with
  | nil =>
    cases reads
    refine ⟨[],text,by simp,rfl,?_⟩
    obtain ⟨passed,rest,rfl,gap,begins⟩ := exists_gap text
    obtain ⟨kind,word,lexeme,after,rfl,spelled⟩ := exists_spelled begins
    rw [List.nil_append,List.nil_append,← List.append_assoc blanks]
    exact .token gap spelled (gap.behind_blanks blank) spelled (fun _ => rfl) .same
  | cons token tokens ih =>
    obtain ⟨tile,after,rfl,fits⟩ := exists_tile before text
    cases reads with
    | more more later =>
      rw [fits.token_eq] at more later
      obtain ⟨passed,rest,rfl,rfl,relaid⟩ := ih later
      have first : ∀ c ∈ blanks.head?, Blank c := fun c first => blank c (List.mem_of_mem_head? first)
      refine ⟨tile.source ++ passed,rest,by simp,by simp,?_⟩
      rw [List.append_assoc,List.append_assoc]
      exact behind_tile fits more first (fun _ _ => blank) relaid

end Relaid

theorem Tile.Fits.lineEnd_eq {before passed rest after : List Char} {tile : Tile}
    (fits : tile.Fits before after) (same : tile.source = passed ++ '\n' :: rest) :
    tile.token.kind = .newLine ∧ tile.skipped = passed ∧ tile.lexeme = ['\n'] ∧ rest = [] := by
  have inside : '\n' ∈ tile.lexeme := by
    have there : '\n' ∈ tile.source := by simp [same]
    exact (List.mem_append.mp there).resolve_left fits.gap.no_lineEnd
  have kind := fits.spelled.newLine_of_mem inside
  have lexeme : tile.lexeme = ['\n'] := (kind ▸ fits.spelled).lexeme_of_newLine
  rw [Tile.source,lexeme] at same
  rcases List.append_eq_append_iff.mp same with ⟨further,rfl,there⟩ | ⟨further,passed,there⟩
  · cases further with
    | nil => exact ⟨kind,by simp,lexeme,(List.cons.inj there).2.symm⟩
    | cons => simp at there
  · cases further with
    | nil => exact ⟨kind,by simpa using passed,lexeme,(List.cons.inj there).2⟩
    | cons c further =>
      obtain ⟨rfl,_⟩ := List.cons.inj there
      exact absurd (by simp [passed]) fits.gap.no_lineEnd

theorem LineEnds.spelled {after : List Char} (ends : LineEnds after) : ∃ kind word lexeme left,
    after = lexeme ++ left ∧ TokenKind.Spelled kind word lexeme left := by
  cases after with
  | nil => exact ⟨_,_,_,_,rfl,.ended⟩
  | cons c left =>
    obtain rfl := ends c rfl
    exact ⟨.newLine,['\n'],['\n'],left,rfl,.mark (by decide)⟩

theorem LineEnds.gap_or_tile {after : List Char} (ends : LineEnds after) (before passed : List Char) :
    Gap passed after ∨ ∃ tile further, passed = Tile.source tile ++ further ∧ tile.token.kind ≠ .eof ∧
      tile.Fits before (further ++ after) := by
  obtain ⟨tile,left,same,fits⟩ := exists_tile before (passed ++ after)
  by_cases ended : tile.token.kind = .eof
  · obtain ⟨_,lexeme,rfl⟩ := (ended ▸ fits.spelled).nothing_at_end
    have gap := fits.gap
    rw [Tile.source,lexeme,List.append_nil,List.append_nil] at same
    rw [lexeme,← same] at gap
    cases after with
    | nil => exact .inl (by simpa using gap)
    | cons c left =>
      obtain rfl := ends c rfl
      exact absurd (by simp) gap.no_lineEnd
  rcases List.append_eq_append_iff.mp same with ⟨further,source,rfl⟩ | ⟨further,rfl,rfl⟩
  · cases further with
    | nil =>
      rw [List.append_nil] at source
      exact .inr ⟨tile,[],by simp [source],ended,fits⟩
    | cons c further =>
      obtain rfl := ends c rfl
      obtain ⟨_,rfl,lexeme,rfl⟩ := fits.lineEnd_eq source
      have gap := fits.gap
      rw [lexeme] at gap
      exact .inl gap
  · exact .inr ⟨tile,further,rfl,ended,fits⟩

theorem Cursor.tokens_more {cursor : Cursor} (more : cursor.token.1.kind ≠ .eof) :
    cursor.tokens.1 = cursor.token.1 :: cursor.token.2.tokens.1 := by
  rw [tokens]
  simp [more]

theorem Relaid.lineEnd {before passed after filler : List Char} (ends : LineEnds after)
    (gap : Gap filler after) (blank : ∀ c ∈ filler.head?, Blank c)
    (closed : (∀ c ∈ filler, Blank c) ∨ ∀ token ∈ (Cursor.behind before (passed ++ after)).tokens.1,
      token.position.row = (Position.past (before ++ passed)).row → token.kind ≠ .unclosed) :
    Relaid (passed ++ after) (passed ++ (filler ++ after)) := by
  induction size : passed.length using Nat.strongRecOn generalizing before passed with
  | ind length ih =>
    rcases ends.gap_or_tile before passed with wide | ⟨tile,further,rfl,more,fits⟩
    · obtain ⟨kind,word,lexeme,left,rfl,spelled⟩ := ends.spelled
      rw [← List.append_assoc passed filler]
      exact .token wide spelled (wide.extend gap ends) spelled (fun _ => rfl) .same
    · have shorter : further.length < length := by
        have some := List.length_pos_iff.mpr (fits.spelled.lexeme_ne_nil more)
        simp only [← size,Tile.source,List.length_append]
        omega
      have first := fits.token_eq
      rw [← List.append_assoc] at first
      rw [Cursor.tokens_more (by rwa [first]),first] at closed
      rw [List.append_assoc,List.append_assoc]
      refine behind_tile fits more blank ?_ (@ih _ shorter (before ++ tile.source) further ?_ rfl)
      · intro unclosed nothing
        refine closed.resolve_right fun none => none tile.token (by simp) ?_ unclosed
        have noGap := List.count_eq_zero.mpr fits.gap.no_lineEnd
        have lexeme := fits.spelled.count_lineEnd
        simp [fits.position,Position.past,Tile.source,nothing,noGap,lexeme,unclosed]
      · rw [List.append_assoc]
        exact closed.imp_right fun none token member => none token (List.mem_cons_of_mem _ member)

namespace Insertion

theorem relaid {text text' : List Char} (insertion : Insertion text text') : Relaid text text' := by
  cases insertion with
  | @ahead before rest blanks tokens reads blank =>
    rw [Cursor.start_eq] at reads
    obtain ⟨passed,left,place,source,relaid⟩ := Relaid.ahead reads blank
    obtain rfl : rest = left := congrArg Cursor.rest place
    obtain rfl := List.append_cancel_right source
    exact relaid
  | @trailing before after blanks blank ends =>
    exact @Relaid.lineEnd [] _ _ _ ends (.blanks blank)
      (fun c first => blank c (List.mem_of_mem_head? first)) (.inl blank)
  | @remark before after blanks remark some blank inLine ends closed =>
    obtain ⟨c,blanks,rfl⟩ := List.exists_cons_of_ne_nil some
    refine @Relaid.lineEnd [] _ _ _ ends (.comment blank inLine ends) ?_ (.inr closed)
    intro d first
    cases first
    exact blank _ (by simp)

theorem alike {text text' : List Char} (insertion : Insertion text text') (index : Nat) :
    ((Cursor.start text).supply.get index).Alike ((Cursor.start text').supply.get index) := by
  rw [Cursor.start_eq,Cursor.start_eq]
  exact insertion.relaid.alike rfl index

end Insertion

def ParseError.Alike : ParseError → ParseError → Prop
  | unexpected expected got,unexpected expected' got' =>
    expected = expected' ∧ got.kind = got'.kind ∧ got.position.row = got'.position.row
  | unknownCommand token,unknownCommand token' =>
    token.text = token'.text ∧ token.position.row = token'.position.row
  | _,_ => False

inductive Agree : Except ParseError Program → Except ParseError Program → Prop where
  | ok {program : Program} : Agree (.ok program) (.ok program)
  | error {cause cause' : ParseError} : cause.Alike cause' → Agree (.error cause) (.error cause')

theorem Agree.ok_iff {outcome outcome' : Except ParseError Program} (agree : Agree outcome outcome')
    (program : Program) : outcome' = .ok program ↔ outcome = .ok program := by
  cases agree with
  | ok => exact Iff.rfl
  | error => simp

theorem parse_of_alike {text text' : List Char}
    (alike : ∀ index, ((Cursor.start text).supply.get index).Alike ((Cursor.start text').supply.get index)) :
    Agree (parse text) (parse text') := by
  obtain ⟨count,statements,stop,reading⟩ := exists_reading text
  have reading' := reading.congr fun index _ => (alike index).gist.symm
  rw [parse_of_reading reading,parse_of_reading reading']
  cases stop with
  | ended => exact .ok
  | fault fault right taken =>
    obtain ⟨gist,row⟩ := alike (count+right)
    refine .error ?_
    cases fault with
    | unexpected expected => exact ⟨rfl,Token.kind_of_gist gist,row⟩
    | unknownCommand =>
      cases reading.stops with
      | command named =>
        rw [Stream'.head_drop] at named
        exact ⟨Token.text_of_gist gist (by simp [named]),row⟩

theorem Insertion.alike_of_chain {text text' : List Char}
    (insertions : Relation.ReflTransGen Insertion text text') (index : Nat) :
    ((Cursor.start text).supply.get index).Alike ((Cursor.start text').supply.get index) := by
  induction insertions with
  | refl => exact ⟨rfl,rfl⟩
  | tail _ insertion ih =>
    have last := insertion.alike index
    exact ⟨ih.gist.trans last.gist,ih.row.trans last.row⟩

def withReturns (text : List Char) : List Char :=
  text.flatMap fun c => if c = '\n' then ['\r','\n'] else [c]

theorem insertions_withReturns (before text : List Char) :
    Relation.ReflTransGen Insertion (before ++ text) (before ++ withReturns text) := by
  induction text generalizing before with
  | nil => exact .refl
  | cons c text ih =>
    by_cases lineEnd : c = '\n'
    · subst lineEnd
      have first : Insertion (before ++ '\n' :: text) (before ++ (['\r'] ++ '\n' :: text)) :=
        .trailing (by simp [Blank]) (by simp [LineEnds])
      have rest := ih (before ++ ['\r','\n'])
      simp only [List.append_assoc] at rest
      exact .head first rest
    · have rest := ih (before ++ [c])
      simp only [List.append_assoc] at rest
      simpa [withReturns,lineEnd] using rest

theorem parse_layout :
    (∀ text text', Relation.ReflTransGen Insertion text text' → Agree (parse text) (parse text')) ∧
    ∀ text program, parse (withReturns text) = .ok program ↔ parse text = .ok program := by
  refine ⟨fun text text' insertions => parse_of_alike (Insertion.alike_of_chain insertions),?_⟩
  intro text program
  exact (parse_of_alike (Insertion.alike_of_chain (insertions_withReturns [] text))).ok_iff program

def remarked : List Char := ['#','h','a','l','t','\t',' ','A','\r',' ','/','/','x','\n']

theorem parse_layout_remarked : Relation.ReflTransGen Insertion halting remarked ∧
    Agree (parse halting) (parse remarked) ∧ parse (withReturns halting) = parse halting := by
  have ahead : Insertion halting (['#','h','a','l','t'] ++ (['\t'] ++ [' ','A','\n'])) :=
    @Insertion.ahead ['#','h','a','l','t'] [' ','A','\n'] ['\t'] [⟨.command,"#halt",⟨0,0⟩⟩]
      (Cursor.Reads.single_iff.mpr ⟨by decide,by decide⟩) (by simp [Blank])
  have trailing : Insertion (['#','h','a','l','t','\t',' ','A'] ++ ['\n'])
      (['#','h','a','l','t','\t',' ','A'] ++ (['\r'] ++ ['\n'])) :=
    .trailing (by simp [Blank]) (by simp [LineEnds])
  have remark : Insertion (['#','h','a','l','t','\t',' ','A','\r'] ++ ['\n']) remarked := by
    refine @Insertion.remark _ ['\n'] [' '] ['x'] (by simp) (by simp [Blank]) (by simp) (by simp [LineEnds]) ?_
    have tokens : (Cursor.start (['#','h','a','l','t','\t',' ','A','\r'] ++ ['\n'])).tokens.1 =
        [⟨.command,"#halt",⟨0,0⟩⟩,⟨.symbol,"A",⟨0,7⟩⟩,⟨.newLine,"\n",⟨0,9⟩⟩] := by decide +kernel
    rw [tokens]
    decide
  have chain : Relation.ReflTransGen Insertion halting remarked :=
    .head ahead (.head trailing (.single remark))
  exact ⟨chain,parse_layout.1 _ _ chain,((parse_layout.2 _ _).mpr halting_parsed).trans halting_parsed.symm⟩

end TapeMachine
