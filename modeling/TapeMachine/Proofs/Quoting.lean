import TapeMachine.Proofs.RoundTrip
import TapeMachine.Proofs.Tiling

-- Writing a symbol is exact: it is refused just where no text holds the symbol, it leaves the
-- symbol bare just where that stands for itself, and what is written is read as the symbol and
-- no further, whatever may stand behind a symbol.
namespace TapeMachine

def SetApart (tail : List Char) : Prop :=
  tail = [] ∨ (∃ c ∈ tail.head?, Blank c) ∨ ∃ mark ∈ marks, mark.2 <+: tail

theorem SetApart.apart {tail : List Char} (set : SetApart tail) : Apart tail := by
  intro c next
  refine (isSymbolChar_eq_false_iff c).mpr fun wordy => ?_
  rcases set with rfl | ⟨blank,first,isBlank⟩ | ⟨mark,member,begins⟩
  · cases next
  · cases first.symm.trans next
    exact wordy.1 isBlank
  · -- A mark's first character is no part of a word.
    have more : mark.2 ≠ [] := by
      have all : ∀ mark ∈ marks, mark.2 ≠ [] := by decide
      exact all mark member
    refine wordy.2.2 mark member ?_
    obtain ⟨rest,rfl⟩ := begins
    rwa [List.head?_append_of_ne_nil _ more] at next

theorem isBare_iff (symbol : List Char) : isBare symbol = true ↔
    symbol ≠ [] ∧ ¬['#'] <+: symbol ∧ ¬['/','/'] <+: symbol ∧ ∀ c ∈ symbol, Wordy c := by
  simp only [isBare,Bool.and_eq_true,Bool.not_eq_true',Bool.or_eq_false_iff,List.all_eq_true,
    List.isEmpty_eq_false_iff,isSymbolChar_iff,and_assoc]
  simp only [← Bool.not_eq_true,List.isPrefixOf_iff_prefix]

theorem symbolSource_of_bare {symbol : String} (bare : isBare symbol.toList = true) :
    symbolSource symbol = .ok symbol := by
  rw [symbolSource,if_pos bare]

theorem symbolSource_eq_error_iff {symbol : String} {cause : Unwritable} :
    symbolSource symbol = .error cause ↔ ¬Writable symbol ∧ cause = ⟨symbol⟩ := by
  constructor
  · intro refused
    refine ⟨fun writable => ?_,?_⟩
    · obtain ⟨written,source⟩ := symbolSource_ok writable
      cases refused.symm.trans source
    · unfold symbolSource at refused
      split at refused
      · cases refused
      · split at refused <;> cases refused
        rfl
  · rintro ⟨unwritable,rfl⟩
    have strange : '\'' ∈ symbol.toList ∨ '\n' ∈ symbol.toList := by
      simpa only [Writable,not_and_or,Decidable.not_not] using unwritable
    have quoted : isBare symbol.toList ≠ true := by
      intro bare
      obtain ⟨_,_,_,wordy⟩ := (isBare_iff _).mp bare
      rcases strange with quote | lineEnd
      · exact (wordy _ quote).2.1 rfl
      · exact (wordy _ lineEnd).2.2 (.newLine,['\n']) (by decide) rfl
    rw [symbolSource,if_neg quoted,if_pos strange]

theorem writable_of_written {symbol written : String} (source : symbolSource symbol = .ok written) :
    Writable symbol := by
  refine Classical.byContradiction fun unwritable => ?_
  cases source.symm.trans (symbolSource_eq_error_iff.mpr ⟨unwritable,rfl⟩)

theorem written_in_line {symbol written : String} (source : symbolSource symbol = .ok written) :
    '\n' ∉ written.toList := by
  have writable := writable_of_written source
  unfold symbolSource at source
  split at source
  · cases source
    exact writable.2
  · split at source <;> cases source
    have quoted : ("'" ++ symbol ++ "'").toList = '\'' :: (symbol.toList ++ ['\'']) := by simp
    show '\n' ∉ ("'" ++ symbol ++ "'").toList
    rw [quoted]
    simpa using writable.2

namespace Cursor

theorem token_written {symbol written : String} (source : symbolSource symbol = .ok written)
    (before : List Char) {tail : List Char} (apart : Apart tail) :
    (behind before (written.toList ++ tail)).token =
      (⟨.symbol,symbol,.past before⟩,behind (before ++ written.toList) tail) := by
  obtain ⟨begins,lexeme⟩ := symbolSource_read source apart
  have here := skipped_behind before (.blanks (by simp) : Gap [] (written.toList ++ tail)) begins
  rw [List.nil_append,List.append_nil] at here
  have read : Lexeme.read (behind before (written.toList ++ tail)).rest =
    ⟨.symbol,symbol.toList,written.toList.length⟩ := lexeme
  simp only [token,here,read,position_behind,pass_behind,String.ofList_toList]

theorem behind_in_line {passed rest : List Char} (inLine : '\n' ∉ passed) :
    behind passed rest = ⟨rest,passed.length,0,0⟩ := by
  have all : passed.reverse.takeWhile (· ≠ '\n') = passed.reverse := by
    refine List.takeWhile_eq_self_iff.mpr fun c member => decide_eq_true ?_
    rintro rfl
    exact inLine (List.mem_reverse.mp member)
  have row : passed.count '\n' = 0 := List.count_eq_zero_of_not_mem inLine
  rw [behind,Position.past,all,row,List.length_reverse,Nat.sub_self]

theorem tokens_written {symbol written : String} (source : symbolSource symbol = .ok written) :
    (start written.toList).tokens.1 = [⟨.symbol,symbol,⟨0,0⟩⟩] := by
  have read := token_written source [] (show Apart [] by simp [Apart])
  rw [List.append_nil,← start_eq] at read
  exact (Reads.single_iff.mpr ⟨read,by simp⟩).tokens_eq (token_at_end rfl)

theorem spelled_of_tokens {text : List Char} {token : Token} {later : List Token}
    (tokens : (start text).tokens.1 = token :: later) : ∃ skipped lexeme after,
      text = skipped ++ lexeme ++ after ∧ token.kind.Spelled token.text.toList lexeme after := by
  obtain ⟨tile,after,rfl,fits⟩ := exists_tile [] text
  rw [start_eq,Cursor.tokens,fits.token_eq] at tokens
  split at tokens
  · cases tokens
  · cases tokens
    exact ⟨tile.skipped,tile.lexeme,after,rfl,fits.spelled⟩

end Cursor

-- A symbol that spells itself is bare, as any quotation is longer than what it quotes.
theorem isBare_of_spelled {symbol skipped lexeme after : List Char}
    (text : symbol = skipped ++ lexeme ++ after)
    (spelled : TokenKind.symbol.Spelled symbol lexeme after) : isBare symbol = true := by
  cases spelled with
  | bare more wordy noCommand noComment _ => exact (isBare_iff _).mpr ⟨more,noCommand,noComment,wordy⟩
  | quoted plain =>
    have length := congrArg List.length text
    simp only [List.length_append,List.length_cons] at length
    omega
  | mark member => simp [marks] at member

open Cursor in
theorem symbolSource_bare_iff {symbol : String} : symbolSource symbol = .ok symbol ↔
    ∃ token, (start symbol.toList).tokens.1 = [token] ∧ token.kind = .symbol ∧
      token.text = symbol := by
  constructor
  · intro source
    exact ⟨_,tokens_written source,rfl,rfl⟩
  · rintro ⟨token,tokens,kind,same⟩
    obtain ⟨skipped,lexeme,after,text,spelled⟩ := spelled_of_tokens tokens
    rw [kind,same] at spelled
    exact symbolSource_of_bare (isBare_of_spelled text spelled)

open Cursor in
theorem writable_iff {symbol : String} : Writable symbol ↔
    ∃ text, ∃ token ∈ (start text).tokens.1, token.kind = .symbol ∧ token.text = symbol := by
  constructor
  · intro writable
    obtain ⟨written,source⟩ := symbolSource_ok writable
    have tokens := tokens_written source
    exact ⟨written.toList,_,tokens ▸ List.mem_singleton_self _,rfl,rfl⟩
  · rintro ⟨text,token,member,kind,rfl⟩
    obtain ⟨last,reads,_⟩ := Reads.of_tokens (start text)
    exact reads.writable token member kind

structure QuotesExactly (symbol : String) : Prop where
  refused : ∀ cause, symbolSource symbol = .error cause ↔ cause = ⟨symbol⟩ ∧
    ∀ text, ∀ token ∈ (Cursor.start text).tokens.1, ¬(token.kind = .symbol ∧ token.text = symbol)
  bare : symbolSource symbol = .ok symbol ↔ ∃ token,
    (Cursor.start symbol.toList).tokens.1 = [token] ∧ token.kind = .symbol ∧ token.text = symbol
  read : ∀ written, symbolSource symbol = .ok written → ∀ tail, SetApart tail →
    (Cursor.start (written.toList ++ tail)).token =
      (⟨.symbol,symbol,⟨0,0⟩⟩,⟨tail,written.toList.length,0,0⟩)

theorem quotes_exactly (symbol : String) : QuotesExactly symbol where
  refused := by
    intro cause
    rw [symbolSource_eq_error_iff,writable_iff,and_comm]
    simp only [not_exists,not_and]
  bare := symbolSource_bare_iff
  read := by
    intro written source tail set
    have read := Cursor.token_written source [] set.apart
    rw [List.nil_append,Cursor.behind_in_line (written_in_line source)] at read
    exact read

example : symbolSource "/" = .ok "/" ∧ symbolSource "a//#" = .ok "a//#" ∧
    symbolSource "//" = .ok "'//'" ∧ symbolSource "it's" = .error ⟨"it's"⟩ := by decide

end TapeMachine
