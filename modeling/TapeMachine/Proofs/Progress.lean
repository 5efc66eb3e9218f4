import TapeMachine.Proofs.Accesses
import TapeMachine.Proofs.Scanning
import TapeMachine.Proofs.TokenOperations

-- Reading and parsing get on from every place that they come to, and come to an end. Each token
-- but the end mark takes some of the text, so what is left of the text bounds the tokens, and the
-- tokens bound every loop of a parse.
namespace TapeMachine

inductive Reached (text : List Char) : Cursor → Prop where
  | start : Reached text (.start text)
  | read {cursor : Cursor} (operation : Cursor.Operation) : Reached text cursor →
      Reached text (cursor.perform operation).2
  | parsed {parser : Parser} (operation : Parser.Operation) : Reached text parser.cursor →
      Reached text (Parser.perform operation parser).2.cursor

theorem Position.past_append_ne (before : List Char) {passed : List Char} (some : passed ≠ []) :
    past (before ++ passed) ≠ past before := by
  intro same
  have rows := congrArg Position.row same
  have columns := congrArg Position.column same
  simp only [past,List.count_append,List.reverse_append] at rows columns
  have none : '\n' ∉ passed := List.count_eq_zero.mp (by omega)
  have inLine : ∀ c ∈ passed.reverse, decide (c ≠ '\n') = true := by
    intro c member
    exact decide_eq_true fun lineEnd => none (lineEnd ▸ List.mem_reverse.mp member)
  rw [List.takeWhile_append_of_pos inLine,List.length_append,List.length_reverse] at columns
  have length := List.length_pos_iff.mpr some
  omega

theorem Tile.Fits.ahead_eq {before after : List Char} {tile : Tile} (fits : tile.Fits before after) :
    (Cursor.behind before (tile.source ++ after)).ahead = tile.token ::
      if tile.token.kind = .eof then [] else (Cursor.behind (before ++ tile.source) after).ahead := by
  have found := fits.token_eq
  by_cases ended : tile.token.kind = .eof
  · rw [if_pos ended,Cursor.ahead_end (by rwa [found]),found]
  · rw [if_neg ended,Cursor.ahead_more (by rwa [found]),found]

namespace Cursor

theorem Reads.length_le {cursor last : Cursor} {tokens : List Token} (reads : Reads cursor tokens last) :
    tokens.length + last.rest.length ≤ cursor.rest.length := by
  induction reads with
  | done => simp
  | more more _ ih =>
    have shorter := token_shorter more
    rw [List.length_cons]
    omega

namespace Of

variable {text : List Char} {cursor last : Cursor}

theorem places (within : Of text cursor) (count : Nat) : Of text (cursor.places.get count) := by
  induction count generalizing cursor with
  | zero => exact within
  | succ count ih =>
    rw [Stream'.get_succ,places_tail]
    exact ih within.token

theorem reads {tokens : List Token} (within : Of text cursor) (reads : Reads cursor tokens last) :
    Of text last := by
  rw [reads.last_eq]
  exact within.places tokens.length

theorem perform (within : Of text cursor) (operation : Operation) : Of text (cursor.perform operation).2 := by
  obtain ⟨before,rest,rfl,rfl⟩ := within
  obtain ⟨_,taken,middle,answers,performed⟩ := exists_answer before rest operation
  obtain ⟨rfl,_⟩ := answers.tiling
  rw [performed]
  exact ⟨before ++ covered taken,middle,(List.append_assoc ..).symm,rfl⟩

theorem token_end (within : Of text cursor) (ended : cursor.token.1.kind = .eof) :
    cursor.token = (endMark text,.behind text []) := by
  obtain ⟨before,⟨skipped,lexeme,kind,word,position⟩,after,rfl,fits,rfl,found⟩ := within.tile
  have mark : (behind before _).supply.head = _ := congrArg Stream'.head (supply_at_end ended)
  rw [found] at ended
  obtain rfl : kind = .eof := ended
  obtain ⟨_,rfl,rfl⟩ := fits.spelled.nothing_at_end
  rw [List.append_nil] at found mark ⊢
  exact Prod.ext mark (by rw [found])

theorem again (within : Of text cursor) (ended : cursor.token.1.kind = .eof) (count : Nat) :
    (cursor.places.get count).token = cursor.token := by
  have found := within.token_end ended
  induction count with
  | zero => rfl
  | succ count ih =>
    have onward : cursor.places.get (count+1) = (cursor.places.get count).token.2 :=
      Stream'.get_succ_iterate' ..
    rw [onward,ih,found,token_nothing_left]

theorem token_progress (within : Of text cursor) :
    cursor.token.1.kind = .eof ∧ cursor.token.2.offset = text.length ∨
      cursor.token.1.kind ≠ .eof ∧ cursor.offset < cursor.token.2.offset ∧
        cursor.token.2.offset ≤ text.length := by
  by_cases ended : cursor.token.1.kind = .eof
  · refine .inl ⟨ended,?_⟩
    rw [within.token_end ended]
    rfl
  · have here := within.offset_add
    have behind := within.token.offset_add
    have shorter := token_shorter ended
    exact .inr ⟨ended,by omega,by omega⟩

theorem ahead_eq (within : Of text cursor) : cursor.ahead = cursor.tokens.1 ++ [endMark text] := by
  obtain ⟨last,reads,ended⟩ := Reads.of_tokens cursor
  rw [reads.ahead_eq,ahead_end ended,(within.reads reads).token_end ended,reads.tokens_eq ended]

theorem few_tokens (within : Of text cursor) : cursor.tokens.1.length + cursor.offset ≤ text.length := by
  obtain ⟨last,reads,_⟩ := Reads.of_tokens cursor
  have here := within.offset_add
  have shorter := reads.length_le
  omega

end Of

theorem ahead_distinct (before text : List Char) :
    (∀ token ∈ (behind before text).ahead, ∃ passed, token.position = .past (before ++ passed)) ∧
      (behind before text).ahead.Nodup := by
  induction size : text.length using Nat.strongRecOn generalizing before text with
  | ind size ih =>
    obtain ⟨tile,after,rfl,fits⟩ := exists_tile before text
    have here : ∃ passed, tile.token.position = .past (before ++ passed) := ⟨_,fits.position⟩
    rw [fits.ahead_eq]
    by_cases ended : tile.token.kind = .eof
    · rw [if_pos ended]
      exact ⟨by simpa using here,List.pairwise_singleton ..⟩
    · obtain ⟨places,distinct⟩ := ih after.length (size ▸ fits.shorter ended) (before ++ tile.source) after rfl
      rw [if_neg ended]
      refine ⟨List.forall_mem_cons.mpr ⟨here,?_⟩,List.nodup_cons.mpr ⟨?_,distinct⟩⟩
      · intro token member
        obtain ⟨passed,place⟩ := places token member
        exact ⟨tile.source ++ passed,by rw [place,List.append_assoc]⟩
      · intro member
        -- The tokens behind stand past the spelling of this one, and that is not empty.
        obtain ⟨passed,place⟩ := places tile.token member
        have some := fits.spelled.lexeme_ne_nil ended
        rw [fits.position,Tile.source,List.append_assoc,List.append_assoc,← List.append_assoc before] at place
        exact Position.past_append_ne _ (by simp [some]) place.symm

theorem Of.distinct {text : List Char} {cursor : Cursor} (within : Of text cursor) : cursor.ahead.Nodup := by
  obtain ⟨before,rest,_,rfl⟩ := within
  exact (ahead_distinct before rest).2

end Cursor

theorem Reached.within {text : List Char} {cursor : Cursor} (reached : Reached text cursor) :
    Cursor.Of text cursor := by
  induction reached with
  | start => exact .start text
  | read operation _ ih => exact ih.perform operation
  | parsed operation _ ih =>
    obtain ⟨count,_,behind⟩ := Parser.perform_yields operation _
    rw [behind]
    exact ih.places count

namespace Parser
open Cursor

def Ends (cursor : Cursor) (parse : Parses α) (watched : Watches α) : Prop :=
  ∀ accepted, ∃ tokens, tokens <+: cursor.ahead ∧
    watched ⟨⟨cursor,accepted⟩,[]⟩ = Watched.told (tokens.map .take) (parse ⟨cursor,accepted⟩)

end Parser

theorem Cursor.Of.program_frugal {text : List Char} {cursor : Cursor} (within : Of text cursor)
    (accepted : List Token) {rounds : Nat} (enough : cursor.remaining < rounds) : ∃ accesses,
      Parser.Watched.program rounds ⟨⟨cursor,accepted⟩,[]⟩ =
        Parser.Watched.told accesses (Parser.program ⟨cursor,accepted⟩) ∧
      Parser.Frugal cursor accesses ∧
      ∀ token, accesses.count (.look token) ≤ 1 ∧ accesses.count (.take token) ≤ 1 := by
  obtain ⟨accesses,frugal,watched⟩ := Parser.program_told ⟨cursor,accepted⟩ [] enough
  exact ⟨accesses,watched,frugal,frugal.once within.distinct⟩

structure Progresses (text : List Char) (cursor : Cursor) : Prop where
  token : cursor.token.1.kind = .eof ∧ cursor.token.2.offset = text.length ∨
    cursor.token.1.kind ≠ .eof ∧ cursor.offset < cursor.token.2.offset ∧
      cursor.token.2.offset ≤ text.length
  -- By numbers of characters, no character is asked for behind the text, and no loop goes on for
  -- more rounds than there are characters left, and one.
  scanned : ∀ rounds, text.length - cursor.offset < rounds →
    Scanner.token rounds (cursor.scanner text) = .ok cursor.token.1 (cursor.token.2.scanner text)
  peeked : ∀ rounds, text.length - cursor.offset < rounds →
    Scanner.peek rounds (cursor.scanner text) = .ok cursor.token.1 (cursor.scanner text)
  iterated : ∀ rounds, text.length - cursor.offset < rounds →
    Scanner.tokens rounds (cursor.scanner text) = .ok cursor.tokens.1 (cursor.tokens.2.scanner text)
  few : cursor.tokens.1.length + cursor.offset ≤ text.length
  again : cursor.token.1.kind = .eof → ∀ count, (cursor.places.get count).token = cursor.token
  ahead : cursor.ahead = cursor.tokens.1 ++ [endMark text]
  distinct : cursor.ahead.Nodup
  rule : Parser.Ends cursor Parser.rule Parser.Watched.rule
  run : ∀ rounds, cursor.remaining < rounds →
    Parser.Ends cursor Parser.run (Parser.Watched.run rounds)
  haltStates : ∀ rounds, cursor.remaining < rounds →
    Parser.Ends cursor Parser.haltStates (Parser.Watched.haltStates rounds)
  program : ∀ rounds, cursor.remaining < rounds → ∀ accepted, ∃ accesses,
    Parser.Watched.program rounds ⟨⟨cursor,accepted⟩,[]⟩ =
      Parser.Watched.told accesses (Parser.program ⟨cursor,accepted⟩) ∧
    Parser.Frugal cursor accesses ∧
    ∀ token, accesses.count (.look token) ≤ 1 ∧ accesses.count (.take token) ≤ 1

theorem reached_progresses {text : List Char} {cursor : Cursor} (reached : Reached text cursor) :
    Progresses text cursor := by
  have within := reached.within
  have left := within.offset_add
  exact {
    token := within.token_progress
    scanned := fun _ enough => within.scanned (by omega)
    peeked := fun _ enough => within.peeked (by omega)
    iterated := fun _ enough => within.scanned_all (by omega)
    few := within.few_tokens
    again := within.again
    ahead := within.ahead_eq
    distinct := within.distinct
    rule := fun accepted => (Parser.Takes.rule ⟨cursor,accepted⟩ []).told
    run := fun _ enough accepted => (Parser.Takes.run ⟨cursor,accepted⟩ [] enough).told
    haltStates := fun _ enough accepted => (Parser.Takes.haltStates ⟨cursor,accepted⟩ [] enough).told
    program := fun _ enough accepted => within.program_frugal accepted enough }

def cutOff : List Char := "A [\n#run [ 'b".toList

theorem reached_progresses_cutOff : Reached cutOff ⟨"\n#run [ 'b".toList,3,0,0⟩ ∧
    Progresses cutOff ⟨"\n#run [ 'b".toList,3,0,0⟩ := by
  have here : (Parser.perform .program (.start cutOff)).2.cursor = ⟨"\n#run [ 'b".toList,3,0,0⟩ := by
    decide +kernel
  have reached : Reached cutOff ⟨"\n#run [ 'b".toList,3,0,0⟩ := here ▸ .parsed .program .start
  exact ⟨reached,reached_progresses reached⟩

end TapeMachine
