import Mathlib.Data.List.Forall2
import TapeMachine.Proofs.Grammar
import TapeMachine.Proofs.Lexing

-- A program that is written and read again is the same program, and what has been read can
-- always be written.
namespace TapeMachine
open Cursor

def Program.Writable (program : Program) : Prop :=
  ∀ symbol ∈ program.occurrences ++ program.haltStates, TapeMachine.Writable symbol

theorem mapM_ok {f : α → Except ε β} {related : α → β → Prop} {xs : List α}
    (all : ∀ x ∈ xs, ∃ y, f x = .ok y ∧ related x y) :
    ∃ ys, xs.mapM f = .ok ys ∧ List.Forall₂ related xs ys := by
  induction xs with
  | nil => exact ⟨[],rfl,.nil⟩
  | cons x xs ih =>
    obtain ⟨y,first,here⟩ := all x (by simp)
    obtain ⟨ys,rest,there⟩ := ih fun x member => all x (List.mem_cons_of_mem _ member)
    refine ⟨y :: ys,?_,.cons here there⟩
    simp only [List.mapM_cons,first,rest]
    rfl

theorem symbolSource_ok {symbol : String} (writable : Writable symbol) :
    ∃ written, symbolSource symbol = .ok written := by
  unfold symbolSource
  split
  · exact ⟨_,rfl⟩
  · rw [if_neg (not_or.mpr writable)]
    exact ⟨_,rfl⟩

def Readable (statement : Statement) (line : String) : Prop :=
  ∀ cursor tail, cursor.rest = line.toList ++ '\n' :: tail →
    ∃ tokens last, Reads cursor tokens last ∧ statement.Spelled tokens ∧ last.rest = tail

theorem apart_space (tail : List Char) : Apart (' ' :: tail) := by
  simp [Apart,isSymbolChar,isHorizontalSpace]

theorem apart_lineEnd (tail : List Char) : Apart ('\n' :: tail) := by
  simp [Apart,isSymbolChar]

theorem space_blank : ∀ c ∈ [' '], isHorizontalSpace c = true := by simp [isHorizontalSpace]

theorem reads_lineEnd {cursor : Cursor} (blanks : List Char) {tail : List Char}
    (text : cursor.rest = blanks ++ '\n' :: tail)
    (blank : ∀ c ∈ blanks, isHorizontalSpace c = true) :
    ∃ token next, Reads cursor [token] next ∧ token.kind = .newLine ∧ next.rest = tail := by
  obtain ⟨token,next,reads,kind,_,rest⟩ := reads_mark blanks ['\n'] text blank
    ⟨by simp [isHorizontalSpace],by simp [List.isPrefixOf]⟩ rfl (by simp)
  exact ⟨token,next,reads,kind,rest⟩

theorem reads_arrow {cursor : Cursor} {tail : List Char} (direction : Direction)
    (text : cursor.rest = ' ' :: (direction.text.toList ++ tail)) :
    ∃ token next, Reads cursor [token] next ∧ Direction.ofArrow token.kind = .ok direction ∧
      next.rest = tail := by
  cases direction with
  | left =>
    obtain ⟨token,next,reads,kind,_,rest⟩ := reads_mark [' '] ['<','-'] text space_blank
      ⟨by simp [isHorizontalSpace],by simp [List.isPrefixOf]⟩ rfl (by simp)
    exact ⟨token,next,reads,by rw [kind]; rfl,rest⟩
  | right =>
    obtain ⟨token,next,reads,kind,_,rest⟩ := reads_mark [' '] ['-','>'] text space_blank
      ⟨by simp [isHorizontalSpace],by simp [List.isPrefixOf]⟩ rfl (by simp)
    exact ⟨token,next,reads,by rw [kind]; rfl,rest⟩

-- Symbols with single blanks between them, read up to what follows them. Where there are
-- none, the blanks in front of them stay.
theorem reads_symbols {symbols written : List String}
    (sources : List.Forall₂ (fun symbol written => symbolSource symbol = .ok written) symbols written)
    {cursor : Cursor} (blanks : List Char) {tail : List Char}
    (text : cursor.rest = blanks ++ ((spaced written).toList ++ tail))
    (blank : ∀ c ∈ blanks, isHorizontalSpace c = true) (apart : Apart tail) :
    ∃ tokens last rest, Reads cursor tokens last ∧ (∀ token ∈ tokens, token.kind = .symbol) ∧
      tokens.map Token.text = symbols ∧ last.rest = rest ++ tail ∧
      ∀ c ∈ rest, isHorizontalSpace c = true := by
  induction sources generalizing cursor blanks with
  | nil =>
    exact ⟨[],cursor,blanks,.done,by simp,rfl,text,blank⟩
  | @cons symbol written symbols others source sources ih =>
    cases sources with
    | nil =>
      have alone : cursor.rest = blanks ++ (written.toList ++ tail) := by
        simpa [spaced] using text
      obtain ⟨token,next,reads,kind,spelled,rest⟩ := reads_symbol source blanks alone blank apart
      exact ⟨[token],next,[],reads,by simpa using kind,by simp [spelled],rest,by simp⟩
    | @cons symbol' written' symbols others source' sources =>
      have parted : cursor.rest = blanks ++
          (written.toList ++ ([' '] ++ ((spaced (written' :: others)).toList ++ tail))) := by
        simpa [spaced,List.intercalate_cons_cons] using text
      obtain ⟨token,next,reads,kind,spelled,rest⟩ :=
        reads_symbol source blanks parted blank (apart_space _)
      obtain ⟨tokens,last,left,later,kinds,texts,behind,blank'⟩ := ih [' '] rest space_blank
      refine ⟨token :: tokens,last,left,reads.andThen later,?_,?_,behind,blank'⟩
      · intro other member
        rcases List.mem_cons.mp member with rfl | member
        · exact kind
        · exact kinds other member
      · rw [List.map_cons,spelled,texts]

theorem rule_source {rule : Rule}
    (writable : ∀ symbol ∈ [rule.state,rule.read,rule.write,rule.next], Writable symbol) :
    ∃ line, rule.source = .ok line ∧ Readable (.rule rule) line := by
  obtain ⟨state,stateSource⟩ := symbolSource_ok (writable rule.state (by simp))
  obtain ⟨read,readSource⟩ := symbolSource_ok (writable rule.read (by simp))
  obtain ⟨write,writeSource⟩ := symbolSource_ok (writable rule.write (by simp))
  obtain ⟨next,nextSource⟩ := symbolSource_ok (writable rule.next (by simp))
  refine ⟨state ++ " " ++ read ++ " " ++ write ++ " " ++ rule.direction.text ++ " " ++ next,?_,?_⟩
  · simp only [Rule.source,stateSource,readSource,writeSource,nextSource]
    rfl
  · intro cursor tail text
    simp only [String.toList_append,List.append_assoc] at text
    obtain ⟨first,_,one,kind1,text1,rest⟩ := reads_symbol stateSource [] text (by simp) (apart_space _)
    obtain ⟨second,_,two,kind2,text2,rest⟩ := reads_symbol readSource [' '] rest space_blank (apart_space _)
    obtain ⟨third,_,three,kind3,text3,rest⟩ := reads_symbol writeSource [' '] rest space_blank (apart_space _)
    obtain ⟨arrow,_,four,kind4,rest⟩ := reads_arrow rule.direction rest
    obtain ⟨fifth,_,five,kind5,text5,rest⟩ := reads_symbol nextSource [' '] rest space_blank (apart_lineEnd _)
    obtain ⟨lineEnd,last,six,kind6,rest⟩ := reads_lineEnd [] rest (by simp)
    have spelled := Statement.Spelled.rule kind1 kind2 kind3 kind4 kind5 kind6
    rw [text1,text2,text3,text5] at spelled
    exact ⟨_,last,one.andThen (two.andThen (three.andThen (four.andThen (five.andThen six)))),spelled,rest⟩

theorem symbols_source {symbols : List String} (writable : ∀ symbol ∈ symbols, Writable symbol) :
    ∃ written, symbols.mapM symbolSource = .ok written ∧
      List.Forall₂ (fun symbol written => symbolSource symbol = .ok written) symbols written :=
  mapM_ok fun symbol member =>
    let ⟨written,source⟩ := symbolSource_ok (writable symbol member)
    ⟨written,source,source⟩

theorem run_source {run : Run} (writable : ∀ symbol ∈ run.state :: run.tape, Writable symbol) :
    ∃ line, run.source = .ok line ∧ Readable (.run run) line := by
  obtain ⟨state,stateSource⟩ := symbolSource_ok (writable run.state (by simp))
  obtain ⟨cells,tape,sources⟩ := symbols_source fun symbol member =>
    writable symbol (List.mem_cons_of_mem _ member)
  refine ⟨"#run [ " ++ spaced cells ++ " ] " ++ state,?_,?_⟩
  · simp only [Run.source,stateSource,tape]
    rfl
  · intro cursor tail text
    simp only [String.toList_append,List.append_assoc] at text
    obtain ⟨command,_,one,kind1,text1,rest⟩ := reads_mark [] ['#','r','u','n'] text (by simp)
      ⟨by simp [isHorizontalSpace],by simp [List.isPrefixOf]⟩ rfl (by simp)
    obtain ⟨bra,_,two,kind2,_,rest⟩ := reads_mark [' '] ['['] rest space_blank
      ⟨by simp [isHorizontalSpace],by simp [List.isPrefixOf]⟩ rfl (by simp)
    obtain ⟨tokens,_,blanks,three,kinds,texts,rest,blank⟩ :=
      reads_symbols sources [' '] rest space_blank (apart_space _)
    have closing : ∀ c ∈ blanks ++ [' '], isHorizontalSpace c = true := by
      intro c member
      rcases List.mem_append.mp member with inside | last
      · exact blank c inside
      · exact space_blank c last
    obtain ⟨ket,_,four,kind4,_,rest⟩ := reads_mark (blanks ++ [' ']) [']']
      (rest.trans (List.append_cons blanks ' ' _)) closing
      ⟨by simp [isHorizontalSpace],by simp [List.isPrefixOf]⟩ rfl (by simp)
    obtain ⟨start,_,five,kind5,text5,rest⟩ :=
      reads_symbol stateSource [' '] rest space_blank (apart_lineEnd _)
    obtain ⟨lineEnd,last,six,kind6,rest⟩ := reads_lineEnd [] rest (by simp)
    have spelled := Statement.Spelled.run kind1 text1 kind2 kinds kind4 kind5 kind6
    rw [texts,text5] at spelled
    exact ⟨_,last,one.andThen (two.andThen (Reads.append_iff.mpr
      ⟨_,three,four.andThen (five.andThen six)⟩)),spelled,rest⟩

theorem halt_source {states written : List String}
    (sources : List.Forall₂ (fun symbol written => symbolSource symbol = .ok written) states written) :
    Readable (.halt states) ("#halt " ++ spaced written) := by
  intro cursor tail text
  simp only [String.toList_append,List.append_assoc] at text
  obtain ⟨command,_,one,kind1,text1,rest⟩ := reads_mark [] ['#','h','a','l','t'] text (by simp)
    ⟨by simp [isHorizontalSpace],by simp [List.isPrefixOf]⟩ rfl (by simp)
  obtain ⟨tokens,_,blanks,two,kinds,texts,rest,blank⟩ :=
    reads_symbols sources [' '] rest space_blank (apart_lineEnd _)
  obtain ⟨lineEnd,last,three,kind3,rest⟩ := reads_lineEnd blanks rest blank
  have spelled := Statement.Spelled.halt kind1 text1 kinds kind3
  rw [texts] at spelled
  exact ⟨_,last,one.andThen (Reads.append_iff.mpr ⟨_,two,three⟩),spelled,rest⟩

theorem lines_read {statements : List Statement} {lines : List String}
    (readable : List.Forall₂ Readable statements lines) {cursor : Cursor}
    (text : cursor.rest = (String.join (lines.map (· ++ "\n"))).toList) :
    ∃ tokens last, Reads cursor tokens last ∧ Sentence tokens statements ∧ last.rest = [] := by
  induction readable generalizing cursor with
  | nil => exact ⟨[],cursor,.done,.done,by simpa using text⟩
  | @cons statement line statements lines first _ ih =>
    have parted : cursor.rest =
        line.toList ++ '\n' :: (String.join (lines.map (· ++ "\n"))).toList := by
      rw [text]
      simp
    obtain ⟨start,middle,reads,spelled,rest⟩ := first cursor _ parted
    obtain ⟨tokens,last,later,sentence,ended⟩ := ih rest
    exact ⟨start ++ tokens,last,Reads.append_iff.mpr ⟨middle,reads,later⟩,.more spelled sentence,ended⟩

theorem token_at_end {cursor : Cursor} (ended : cursor.rest = []) : cursor.token.1.kind = .eof := by
  simp [token,skipped,passWhile_rest,ended,Lexeme.read]

def Program.statements (program : Program) : List Statement :=
  program.rules.map .rule ++ program.runs.map .run ++ [.halt program.haltStates]

theorem lastHaltStates_append (statements : List Statement) {states : List String} (named : states ≠ []) :
    lastHaltStates (statements ++ [.halt states]) = states := by
  cases states with
  | nil => contradiction
  | cons state states => simp [lastHaltStates,Statement.halt?]

theorem statements_denote (program : Program) : Denotes program.statements program := by
  refine ⟨?_,?_,(lastHaltStates_append _ program.haltStates_ne_nil).symm⟩
  · simp [Program.statements,List.filterMap_map,Function.comp_def,Statement.rule?]
  · simp [Program.statements,List.filterMap_map,Function.comp_def,Statement.run?]

theorem program_source {program : Program} (writable : program.Writable) :
    ∃ lines, program.source = .ok (String.join (lines.map (· ++ "\n"))) ∧
      List.Forall₂ Readable program.statements lines := by
  have occurs : ∀ symbol ∈ program.occurrences, TapeMachine.Writable symbol := fun symbol member =>
    writable symbol (List.mem_append_left _ member)
  obtain ⟨rules,rulesWritten,rulesRead⟩ : ∃ lines, program.rules.mapM Rule.source = .ok lines ∧
      List.Forall₂ (fun rule line => Readable (.rule rule) line) program.rules lines :=
    mapM_ok fun rule member => rule_source fun symbol inside => occurs symbol
      (List.mem_append_left _ (List.mem_flatMap.mpr ⟨rule,member,inside⟩))
  obtain ⟨runs,runsWritten,runsRead⟩ : ∃ lines, program.runs.mapM Run.source = .ok lines ∧
      List.Forall₂ (fun run line => Readable (.run run) line) program.runs lines :=
    mapM_ok fun run member => run_source fun symbol inside => occurs symbol
      (List.mem_append_right _ (List.mem_flatMap.mpr ⟨run,member,inside⟩))
  obtain ⟨states,statesWritten,sources⟩ := symbols_source fun symbol member =>
    writable symbol (List.mem_append_right _ member)
  refine ⟨rules ++ runs ++ ["#halt " ++ spaced states],?_,?_⟩
  · simp only [Program.source,rulesWritten,runsWritten,statesWritten]
    rfl
  · exact List.rel_append (List.rel_append (List.forall₂_map_left_iff.mpr rulesRead)
      (List.forall₂_map_left_iff.mpr runsRead)) (.cons (halt_source sources) .nil)

theorem Program.Writable.parse_source {program : Program} (writable : program.Writable) :
    ∃ text, program.source = .ok text ∧ parse text.toList = .ok program := by
  obtain ⟨lines,written,readable⟩ := program_source writable
  refine ⟨_,written,parse_eq_ok_iff.mpr ⟨program.statements,?_,statements_denote program⟩⟩
  have text : (start (String.join (lines.map (· ++ "\n"))).toList).rest = _ := rfl
  obtain ⟨tokens,last,reads,sentence,ended⟩ := lines_read readable text
  rwa [reads.tokens_eq (token_at_end ended)]

def Statement.symbols : Statement → List String
  | .blank => []
  | .rule r => [r.state,r.read,r.write,r.next]
  | .run r => r.state :: r.tape
  | .halt states => states

theorem spelled_symbols {statement : Statement} {tokens : List Token}
    (spelled : statement.Spelled tokens) :
    ∀ symbol ∈ statement.symbols, ∃ token ∈ tokens, token.kind = .symbol ∧ token.text = symbol := by
  cases spelled with
  | blank => simp [Statement.symbols]
  | rule first second third _ fourth => simp [Statement.symbols,first,second,third,fourth]
  | @run _ _ _ state _ cells _ _ _ cellSymbols _ stateSymbol =>
    intro symbol member
    rcases List.mem_cons.mp member with rfl | inside
    · exact ⟨state,by simp,stateSymbol,rfl⟩
    · obtain ⟨cell,there,rfl⟩ := List.mem_map.mp inside
      exact ⟨cell,by simp [there],cellSymbols cell there,rfl⟩
  | @halt _ _ states _ _ stateSymbols =>
    intro symbol member
    obtain ⟨state,there,rfl⟩ := List.mem_map.mp member
    exact ⟨state,by simp [there],stateSymbols state there,rfl⟩

theorem sentence_symbols {tokens : List Token} {statements : List Statement}
    (sentence : Sentence tokens statements) :
    ∀ statement ∈ statements, ∀ symbol ∈ statement.symbols,
      ∃ token ∈ tokens, token.kind = .symbol ∧ token.text = symbol := by
  induction sentence with
  | done => simp
  | more spelled _ ih =>
    intro statement member symbol inside
    rcases List.mem_cons.mp member with rfl | later
    · obtain ⟨token,here,found⟩ := spelled_symbols spelled symbol inside
      exact ⟨token,List.mem_append_left _ here,found⟩
    · obtain ⟨token,there,found⟩ := ih statement later symbol inside
      exact ⟨token,List.mem_append_right _ there,found⟩

-- Each symbol of a program stands in one of the statements that it comes from, the default
-- halt state apart.
theorem Denotes.symbols {statements : List Statement} {program : Program}
    (denotes : Denotes statements program) :
    ∀ symbol ∈ program.occurrences ++ program.haltStates, symbol = defaultHaltState ∨
      ∃ statement ∈ statements, symbol ∈ statement.symbols := by
  intro symbol member
  rcases List.mem_append.mp member with occurs | halts
  · rcases List.mem_append.mp occurs with inRule | inRun
    · obtain ⟨rule,there,inside⟩ := List.mem_flatMap.mp inRule
      rw [denotes.rules] at there
      obtain ⟨statement,stands,named⟩ := List.mem_filterMap.mp there
      cases statement <;> cases named
      exact .inr ⟨_,stands,inside⟩
    · obtain ⟨run,there,inside⟩ := List.mem_flatMap.mp inRun
      rw [denotes.runs] at there
      obtain ⟨statement,stands,named⟩ := List.mem_filterMap.mp there
      cases statement <;> cases named
      exact .inr ⟨_,stands,inside⟩
  · rw [denotes.haltStates,lastHaltStates] at halts
    split at halts
    · rename_i state states final
      obtain ⟨statement,stands,named⟩ := List.mem_filterMap.mp (List.mem_of_getLast? final)
      cases statement <;> cases named
      exact .inr ⟨_,stands,halts⟩
    · exact .inl (List.mem_singleton.mp halts)

theorem writable_of_parse {text : List Char} {program : Program}
    (parsed : parse text = .ok program) : program.Writable := by
  obtain ⟨statements,sentence,denotes⟩ := parse_eq_ok_iff.mp parsed
  obtain ⟨last,reads,_⟩ := Reads.of_tokens (.start text)
  intro symbol member
  rcases denotes.symbols symbol member with rfl | ⟨statement,inside,stands⟩
  · simp [TapeMachine.Writable,defaultHaltState]
  · obtain ⟨token,there,kind,rfl⟩ := sentence_symbols sentence statement inside symbol stands
    exact reads.writable token there kind

theorem parse_undoes_source :
    (∀ program : Program, program.Writable →
      ∃ text, program.source = .ok text ∧ parse text.toList = .ok program) ∧
    ∀ text program, parse text = .ok program → program.Writable ∧
      ∃ written, program.source = .ok written ∧ parse written.toList = .ok program := by
  refine ⟨fun program writable => writable.parse_source,?_⟩
  intro text program parsed
  have writable := writable_of_parse parsed
  exact ⟨writable,writable.parse_source⟩

def awkward : Program :=
  .of [⟨"","#run","//",.left,"a b"⟩,⟨"[","-","\t",.right,"]"⟩] [⟨[],"<-"⟩,⟨["","#","/"],"->"⟩]
    ["#halt",""]

theorem parse_undoes_source_awkward : awkward.Writable ∧
    (∃ text, awkward.source = .ok text ∧ parse text.toList = .ok awkward) ∧
    ∃ text program, parse text = .ok program ∧ program.Writable := by
  have writable : awkward.Writable := by
    simp [Program.Writable,awkward,Program.of,Program.occurrences,TapeMachine.Writable]
  obtain ⟨text,written,parsed⟩ := parse_undoes_source.1 awkward writable
  exact ⟨writable,⟨text,written,parsed⟩,text.toList,awkward,parsed,
    (parse_undoes_source.2 text.toList awkward parsed).1⟩

end TapeMachine
