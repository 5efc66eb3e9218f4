import TapeMachine.Proofs.Spelling
import TapeMachine.Token.Cursor.Operation

-- What reading by hand takes from a text. Tiles are laid side by side, each a stretch that is
-- passed over and a token's spelling behind it: they cover what has been read and nothing else,
-- and no other tiles fit there.
namespace TapeMachine

def Position.past (before : List Char) : Position :=
  ⟨before.count '\n',(before.reverse.takeWhile (· ≠ '\n')).length⟩

structure Tile where
  skipped : List Char
  lexeme : List Char
  token : Token

namespace Tile

def source (tile : Tile) : List Char := tile.skipped ++ tile.lexeme

structure Fits (before : List Char) (tile : Tile) (after : List Char) : Prop where
  gap : Gap tile.skipped (tile.lexeme ++ after)
  spelled : tile.token.kind.Spelled tile.token.text.toList tile.lexeme after
  position : tile.token.position = .past (before ++ tile.skipped)

end Tile

def covered (tiles : List Tile) : List Char := tiles.flatMap Tile.source

inductive Tiling : List Char → List Tile → List Char → Prop where
  | done {before after : List Char} : Tiling before [] after
  | more {before after : List Char} {tile : Tile} {tiles : List Tile} :
      tile.Fits before (covered tiles ++ after) → Tiling (before ++ tile.source) tiles after →
      Tiling before (tile :: tiles) after

namespace Cursor

def behind (before rest : List Char) : Cursor :=
  ⟨rest,before.length,before.length - (Position.past before).column,(Position.past before).row⟩

theorem start_eq (text : List Char) : start text = behind [] text := rfl

theorem position_behind (before rest : List Char) :
    (behind before rest).position = .past before := by
  have within : (Position.past before).column ≤ before.length := by
    simpa [Position.past] using (List.takeWhile_prefix (l := before.reverse) (· ≠ '\n')).length_le
  simp [behind,position,Nat.sub_sub_self within]

theorem next_behind (before rest : List Char) (c : Char) :
    (behind before (c :: rest)).next = behind (before ++ [c]) rest := by
  by_cases lineEnd : c = '\n' <;> simp [behind,next,Position.past,lineEnd]

theorem pass_behind (before passed rest : List Char) :
    (behind before (passed ++ rest)).pass passed.length = behind (before ++ passed) rest := by
  induction passed generalizing before with
  | nil => simp [pass]
  | cons c passed ih =>
    rw [List.cons_append,List.length_cons,pass,next_behind,ih]
    simp

theorem passWhile_behind {keep : Char → Bool} (before : List Char) {passed rest : List Char}
    (kept : ∀ c ∈ passed, keep c = true) (stop : ∀ c ∈ rest.head?, keep c = false) :
    (behind before (passed ++ rest)).passWhile keep = behind (before ++ passed) rest := by
  rw [passWhile,← pass_behind]
  show pass ((passed ++ rest).takeWhile keep).length _ = _
  rw [takeWhile_append_of_stop kept stop]

theorem skipped_behind (before : List Char) {passed rest : List Char} (gap : Gap passed rest)
    (begins : Begins rest) :
    (behind before (passed ++ rest)).skipped = behind (before ++ passed) rest := by
  simp only [skipped]
  cases gap with
  | blanks blank =>
    simp only [← isHorizontalSpace_iff] at blank
    rw [passWhile_behind before blank begins.1]
    simp [behind,begins.2]
  | @comment blanks remark _ blank inLine ends =>
    simp only [← isHorizontalSpace_iff] at blank
    have slashes : (blanks ++ '/' :: '/' :: remark) ++ rest = blanks ++ (('/' :: '/' :: remark) ++ rest) :=
      List.append_assoc ..
    rw [slashes,passWhile_behind before blank (by simp [isHorizontalSpace])]
    have here : ['/','/'].isPrefixOf (behind (before ++ blanks) (('/' :: '/' :: remark) ++ rest)).rest = true := by
      simp [behind]
    rw [if_pos here,passWhile_behind,List.append_assoc]
    · simpa using inLine
    · intro c next
      simp [ends c next]

end Cursor

namespace Tile.Fits

variable {before after : List Char} {tile : Tile}

theorem begins (fits : tile.Fits before after) : Begins (tile.lexeme ++ after) :=
  fits.spelled.begins

theorem skipped_eq (fits : tile.Fits before after) :
    (Cursor.behind before (tile.source ++ after)).skipped =
      .behind (before ++ tile.skipped) (tile.lexeme ++ after) := by
  rw [Tile.source,List.append_assoc]
  exact Cursor.skipped_behind before fits.gap fits.begins

theorem token_eq (fits : tile.Fits before after) :
    (Cursor.behind before (tile.source ++ after)).token =
      (tile.token,.behind (before ++ tile.source) after) := by
  simp only [Cursor.token,fits.skipped_eq,Cursor.position_behind]
  have lexeme : Lexeme.read (Cursor.behind (before ++ tile.skipped) (tile.lexeme ++ after)).rest =
      ⟨tile.token.kind,tile.token.text.toList,tile.lexeme.length⟩ := fits.spelled.read_eq
  rw [lexeme,Cursor.pass_behind,← fits.position]
  simp [Tile.source]

theorem shorter (fits : tile.Fits before after) (more : tile.token.kind ≠ .eof) :
    after.length < (tile.source ++ after).length := by
  have taken := @Cursor.token_shorter (.behind before (tile.source ++ after))
  rw [fits.token_eq] at taken
  exact taken more

theorem unique {other : Tile} {left : List Char} (fits : tile.Fits before after)
    (otherFits : other.Fits before left) (same : tile.source ++ after = other.source ++ left) :
    tile = other ∧ after = left := by
  -- Reading is a function: it fixes what is left, so the spelling, so what is passed over.
  have reads := fits.token_eq
  have skips := fits.skipped_eq
  rw [same,otherFits.token_eq] at reads
  rw [same,otherFits.skipped_eq] at skips
  obtain rfl : after = left := (congrArg (fun read : Token × Cursor => read.2.rest) reads).symm
  have here : tile.lexeme ++ after = other.lexeme ++ after := (congrArg Cursor.rest skips).symm
  have lexeme : tile.lexeme = other.lexeme := List.append_cancel_right here
  have passed : tile.skipped = other.skipped := by
    simpa [Tile.source,lexeme] using same
  have token : tile.token = other.token := (congrArg Prod.fst reads).symm
  refine ⟨?_,rfl⟩
  cases tile
  cases other
  simp_all

end Tile.Fits

theorem exists_tile (before text : List Char) :
    ∃ tile after, text = Tile.source tile ++ after ∧ tile.Fits before after := by
  obtain ⟨passed,rest,rfl,gap,begins⟩ := exists_gap text
  obtain ⟨kind,body,lexeme,after,rfl,spelled⟩ := exists_spelled begins
  exact ⟨⟨passed,lexeme,kind,String.ofList body,.past (before ++ passed)⟩,after,
    (List.append_assoc ..).symm,gap,by simpa using spelled,rfl⟩

theorem covered_append (tiles others : List Tile) :
    covered (tiles ++ others) = covered tiles ++ covered others := List.flatMap_append

theorem covered_single (tile : Tile) : covered [tile] = tile.source := List.flatMap_singleton ..

namespace Tiling

variable {before after : List Char} {tiles : List Tile}

theorem single {tile : Tile} (fits : tile.Fits before after) : Tiling before [tile] after :=
  .more fits .done

theorem append {others : List Tile} (first : Tiling before tiles (covered others ++ after))
    (rest : Tiling (before ++ covered tiles) others after) : Tiling before (tiles ++ others) after := by
  induction tiles generalizing before with
  | nil => simpa [covered] using rest
  | cons tile tiles ih =>
    cases first with
    | more fits later =>
      refine .more (by simpa [covered_append] using fits) (ih later ?_)
      simpa [covered] using rest

theorem unique {others : List Tile} {left : List Char} (one : Tiling before tiles after)
    (other : Tiling before others left) (same : covered tiles ++ after = covered others ++ left)
    (count : tiles.length = others.length) : tiles = others ∧ after = left := by
  induction one generalizing others left with
  | done =>
    obtain rfl := List.eq_nil_of_length_eq_zero count.symm
    exact ⟨rfl,same⟩
  | more fits _ ih =>
    cases other with
    | done => cases count
    | more otherFits later =>
      obtain ⟨rfl,behind⟩ := fits.unique otherFits (by simpa [covered] using same)
      obtain ⟨rfl,rfl⟩ := ih later behind (by simpa using count)
      exact ⟨rfl,rfl⟩

end Tiling

namespace Cursor

inductive Answers (before : List Char) :
    Operation → List Char → Found → List Tile → List Char → Prop where
  | next {tile : Tile} {after : List Char} : tile.Fits before after →
      Answers before .next (tile.source ++ after) (.token tile.token) [tile] after
  | peek {tile : Tile} {after : List Char} : tile.Fits before after →
      Answers before .peek (tile.source ++ after) (.token tile.token) [] (tile.source ++ after)
  | position {rest : List Char} :
      Answers before .position rest (.position (.past before)) [] rest
  | exhausted {rest : List Char} :
      Answers before .exhausted rest (.exhausted rest.isEmpty) [] rest
  | remaining {tiles : List Tile} {last : Tile} : Tiling before (tiles ++ [last]) [] →
      (∀ tile ∈ tiles, tile.token.kind ≠ .eof) → last.token.kind = .eof →
      Answers before .remaining (covered (tiles ++ [last])) (.tokens (tiles.map Tile.token))
        (tiles ++ [last]) []

inductive Answered : List Char → List Operation → List Char → List (Found × Cursor) →
    List Tile → List Char → Prop where
  | done {before rest : List Char} : Answered before [] rest [] [] rest
  | more {before rest middle last : List Char} {operation : Operation} {operations : List Operation}
      {found : Found} {outcomes : List (Found × Cursor)} {taken tiles : List Tile} :
      Answers before operation rest found taken middle →
      Answered (before ++ covered taken) operations middle outcomes tiles last →
      Answered before (operation :: operations) rest
        ((found,.behind (before ++ covered taken) middle) :: outcomes) (taken ++ tiles) last

theorem Answers.tiling {before rest middle : List Char} {operation : Operation} {found : Found}
    {taken : List Tile} (answers : Answers before operation rest found taken middle) :
    rest = covered taken ++ middle ∧ Tiling before taken middle := by
  cases answers with
  | next fits => exact ⟨by rw [covered_single],.single fits⟩
  | peek | position | exhausted => exact ⟨rfl,.done⟩
  | remaining tiling => exact ⟨(List.append_nil _).symm,tiling⟩

theorem Answered.tiling {before rest last : List Char} {operations : List Operation}
    {outcomes : List (Found × Cursor)} {tiles : List Tile}
    (answered : Answered before operations rest outcomes tiles last) :
    rest = covered tiles ++ last ∧ Tiling before tiles last := by
  induction answered with
  | done => exact ⟨rfl,.done⟩
  | more answers _ ih =>
    obtain ⟨rfl,first⟩ := answers.tiling
    obtain ⟨rfl,later⟩ := ih
    exact ⟨by simp [covered_append],first.append later⟩

theorem tokens_behind (before text : List Char) : ∃ tiles last, text = covered (tiles ++ [last]) ∧
    Tiling before (tiles ++ [last]) [] ∧ (∀ tile ∈ tiles, tile.token.kind ≠ .eof) ∧
    last.token.kind = .eof ∧
    (behind before text).tokens = (tiles.map Tile.token,behind (before ++ text) []) := by
  induction size : text.length using Nat.strongRecOn generalizing before text with
  | ind size ih =>
    obtain ⟨tile,after,rfl,fits⟩ := exists_tile before text
    rw [tokens,fits.token_eq]
    by_cases ended : tile.token.kind = .eof
    · obtain rfl : after = [] := (ended ▸ fits.spelled).nothing_after_end
      refine ⟨[],tile,by simp [covered_single],.single fits,by simp,ended,?_⟩
      simp [ended]
    · obtain ⟨tiles,last,rfl,tiling,more,last,found⟩ :=
        ih after.length (size ▸ fits.shorter ended) (before ++ tile.source) after rfl
      refine ⟨tile :: tiles,_,by simp [covered],.more (by simpa using fits) tiling,?_,last,?_⟩
      · simpa using ⟨ended,more⟩
      · simp [ended,found]

theorem exists_answer (before rest : List Char) (operation : Operation) :
    ∃ found taken middle, Answers before operation rest found taken middle ∧
      (behind before rest).perform operation = (found,behind (before ++ covered taken) middle) := by
  cases operation with
  | next =>
    obtain ⟨tile,after,rfl,fits⟩ := exists_tile before rest
    exact ⟨_,_,_,.next fits,by simp [perform,fits.token_eq,covered_single]⟩
  | peek =>
    obtain ⟨tile,after,rfl,fits⟩ := exists_tile before rest
    exact ⟨_,_,_,.peek fits,by simp [perform,fits.token_eq,covered]⟩
  | position => exact ⟨_,_,_,.position,by simp [perform,position_behind,covered]⟩
  | exhausted => exact ⟨_,_,_,.exhausted,by simp [perform,exhausted,behind,covered]⟩
  | remaining =>
    obtain ⟨tiles,last,rfl,tiling,more,ended,found⟩ := tokens_behind before rest
    exact ⟨_,_,_,.remaining tiling more ended,by rw [perform,found]⟩

theorem exists_answered (before rest : List Char) (operations : List Operation) :
    ∃ tiles last, Answered before operations rest ((behind before rest).performAll operations) tiles last := by
  induction operations generalizing before rest with
  | nil => exact ⟨[],rest,.done⟩
  | cons operation operations ih =>
    obtain ⟨found,taken,middle,answers,performed⟩ := exists_answer before rest operation
    obtain ⟨tiles,last,later⟩ := ih (before ++ covered taken) middle
    refine ⟨taken ++ tiles,last,?_⟩
    rw [performAll,performed]
    exact .more answers later

theorem performAll_tiled (text : List Char) (operations : List Operation) : ∃ tiles rest,
    text = covered tiles ++ rest ∧ Tiling [] tiles rest ∧
    Answered [] operations text ((start text).performAll operations) tiles rest ∧
    ∀ others left, Tiling [] others left → text = covered others ++ left →
      others.length = tiles.length → others = tiles ∧ left = rest := by
  rw [start_eq]
  obtain ⟨tiles,rest,answered⟩ := exists_answered [] text operations
  obtain ⟨source,tiling⟩ := answered.tiling
  refine ⟨tiles,rest,source,tiling,answered,?_⟩
  intro others left other otherSource count
  exact other.unique tiling (otherSource.symm.trans source) count

example : (start " a//b // '\n'c\n-".toList).performAll [.next,.peek,.next,.next,.next,.next,.next] =
    [(.token ⟨.symbol,"a//b",⟨0,1⟩⟩,⟨" // '\n'c\n-".toList,5,0,0⟩),
      (.token ⟨.newLine,"\n",⟨0,10⟩⟩,⟨" // '\n'c\n-".toList,5,0,0⟩),
      (.token ⟨.newLine,"\n",⟨0,10⟩⟩,⟨"'c\n-".toList,11,11,1⟩),
      (.token ⟨.unclosed,"c",⟨1,0⟩⟩,⟨"\n-".toList,13,11,1⟩),
      (.token ⟨.newLine,"\n",⟨1,2⟩⟩,⟨['-'],14,14,2⟩),
      (.token ⟨.unknown,"-",⟨2,0⟩⟩,⟨[],15,14,2⟩),
      (.token ⟨.eof,"",⟨2,1⟩⟩,⟨[],15,14,2⟩)] := by decide

end Cursor

end TapeMachine
