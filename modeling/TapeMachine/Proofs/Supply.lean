import Mathlib.Data.Stream.Init
import TapeMachine.Proofs.Tiling

-- Tokens without end: taking one after the other from a text never fails, it only comes to the
-- end mark again and again. A text is from here on what its tokens are.
namespace TapeMachine

abbrev Supply := Stream' Token

def endMark (text : List Char) : Token := ⟨.eof,"",.past text⟩

def tokenSupply (text : List Char) : Supply :=
  (Cursor.start text).tokens.1 ++ₛ Stream'.const (endMark text)

theorem TokenKind.Spelled.nothing_at_end {text lexeme after : List Char}
    (spelled : TokenKind.eof.Spelled text lexeme after) : text = [] ∧ lexeme = [] ∧ after = [] := by
  cases spelled with
  | mark member => simp [marks] at member
  | ended => exact ⟨rfl,rfl,rfl⟩

namespace Cursor

def places (cursor : Cursor) : Stream' Cursor := Stream'.iterate (fun place => place.token.2) cursor

def supply (cursor : Cursor) : Supply := cursor.places.map fun place => place.token.1

theorem places_tail (cursor : Cursor) : cursor.places.tail = cursor.token.2.places :=
  Stream'.tail_iterate _ _

theorem supply_tail (cursor : Cursor) : cursor.supply.tail = cursor.token.2.supply := by
  rw [supply,Stream'.tail_map,places_tail]
  rfl

theorem places_drop (cursor : Cursor) (count : Nat) :
    cursor.places.drop count = (cursor.places.get count).places := by
  induction count generalizing cursor with
  | zero => rfl
  | succ count ih => rw [Stream'.drop_succ,places_tail,ih,← places_tail,Stream'.get_tail]

theorem places_add (cursor : Cursor) (first later : Nat) :
    cursor.places.get (first+later) = (cursor.places.get first).places.get later := by
  rw [← places_drop,Stream'.get_drop]

theorem supply_drop (cursor : Cursor) (count : Nat) :
    cursor.supply.drop count = (cursor.places.get count).supply := by
  rw [supply,Stream'.drop_map,places_drop]
  rfl

theorem Reads.supply_eq {cursor last : Cursor} {tokens : List Token} (reads : Reads cursor tokens last) :
    cursor.supply = tokens ++ₛ last.supply := by
  induction reads with
  | done => rfl
  | @more cursor _ _ _ _ ih =>
    rw [Stream'.cons_append_stream,← ih,← supply_tail]
    exact (Stream'.eta _).symm

theorem Reads.last_eq {cursor last : Cursor} {tokens : List Token} (reads : Reads cursor tokens last) :
    last = cursor.places.get tokens.length := by
  induction reads with
  | done => rfl
  | more _ _ ih => rw [ih,List.length_cons,Stream'.get_succ,places_tail]

theorem Reads.tokens_eq_take {cursor last : Cursor} {tokens : List Token}
    (reads : Reads cursor tokens last) : tokens = cursor.supply.take tokens.length := by
  rw [reads.supply_eq,Stream'.take_append_of_le_length _ _ _ (Nat.le_refl _),List.take_length]

theorem Reads.exists_passed {before text : List Char} {last : Cursor} {tokens : List Token}
    (reads : Reads (behind before text) tokens last) :
    ∃ passed rest, text = passed ++ rest ∧ last = behind (before ++ passed) rest := by
  induction tokens generalizing before text with
  | nil =>
    cases reads
    exact ⟨[],text,rfl,by rw [List.append_nil]⟩
  | cons token tokens ih =>
    obtain ⟨tile,after,rfl,fits⟩ := exists_tile before text
    cases reads with
    | more _ later =>
      rw [fits.token_eq] at later
      obtain ⟨passed,rest,rfl,same⟩ := ih later
      exact ⟨tile.source ++ passed,rest,by simp,by simpa using same⟩

theorem token_nothing_left (before : List Char) :
    (behind before []).token = (endMark before,behind before []) := by
  have here : (behind before []).skipped = behind before [] := by
    have nothing : Gap [] [] := .blanks (by simp)
    simpa using skipped_behind before nothing ⟨by simp,rfl⟩
  simp only [token,here,position_behind]
  rfl

theorem supply_nothing_left (before : List Char) :
    (behind before []).supply = Stream'.const (endMark before) := by
  have stays : (behind before []).places = Stream'.const (behind before []) := by
    refine Stream'.ext fun count => ?_
    induction count with
    | zero => rfl
    | succ count ih =>
      rw [Stream'.get_succ,places_tail,token_nothing_left,ih]
      rfl
  rw [supply,stays,Stream'.map_const,token_nothing_left]

theorem supply_at_end {before text : List Char} (ended : (behind before text).token.1.kind = .eof) :
    (behind before text).supply = Stream'.const (endMark (before ++ text)) := by
  obtain ⟨⟨skipped,lexeme,kind,word,position⟩,after,rfl,fits⟩ := exists_tile before text
  rw [fits.token_eq] at ended
  obtain rfl : kind = .eof := ended
  obtain ⟨noWord,rfl,rfl⟩ := fits.spelled.nothing_at_end
  obtain rfl : word = "" := String.toList_eq_nil_iff.mp noWord
  obtain rfl : position = .past (before ++ skipped) := fits.position
  rw [← Stream'.eta (behind before _).supply,supply_tail,Stream'.const_eq]
  show Stream'.cons (behind before _).token.1 (behind before _).token.2.supply = _
  rw [fits.token_eq,supply_nothing_left]
  simp [Tile.source,endMark]

theorem supply_start (text : List Char) : (start text).supply = tokenSupply text := by
  unfold tokenSupply
  obtain ⟨last,reads,ended⟩ := Reads.of_tokens (start text)
  rw [reads.supply_eq]
  rw [start_eq] at reads
  obtain ⟨passed,rest,rfl,rfl⟩ := reads.exists_passed
  rw [supply_at_end ended]
  rfl

end Cursor

end TapeMachine
