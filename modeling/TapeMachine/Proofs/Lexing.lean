import Mathlib.Data.List.TakeWhile
import TapeMachine.Program.Source
import TapeMachine.Proofs.Reading

-- What is read where something has been written: blanks are passed over, a written symbol
-- comes back as the symbol that it was written for, a mark as the mark.
namespace TapeMachine

def Begins (text : List Char) : Prop :=
  (∀ c ∈ text.head?, isHorizontalSpace c = false) ∧ ['/','/'].isPrefixOf text = false

def Apart (text : List Char) : Prop := ∀ c ∈ text.head?, isSymbolChar c = false

def Writable (symbol : String) : Prop := '\'' ∉ symbol.toList ∧ '\n' ∉ symbol.toList

theorem takeWhile_append_of_stop {p : Char → Bool} {first rest : List Char}
    (all : ∀ c ∈ first, p c = true) (stop : ∀ c ∈ rest.head?, p c = false) :
    (first ++ rest).takeWhile p = first := by
  rw [List.takeWhile_append_of_pos all]
  cases rest with
  | nil => simp
  | cons c rest => simp [stop c rfl]

namespace Cursor

theorem passWhile_rest (keep : Char → Bool) (cursor : Cursor) :
    (cursor.passWhile keep).rest = cursor.rest.drop (cursor.rest.takeWhile keep).length :=
  pass_rest _ _

theorem skipped_rest {cursor : Cursor} {blanks rest : List Char}
    (text : cursor.rest = blanks ++ rest) (blank : ∀ c ∈ blanks, isHorizontalSpace c = true)
    (begins : Begins rest) : cursor.skipped.rest = rest := by
  have past : (cursor.passWhile isHorizontalSpace).rest = rest := by
    rw [passWhile_rest,text,takeWhile_append_of_stop blank begins.1]
    simp
  simp [skipped,past,begins.2]

theorem reads_lexeme {cursor : Cursor} {blanks rest : List Char}
    (text : cursor.rest = blanks ++ rest) (blank : ∀ c ∈ blanks, isHorizontalSpace c = true)
    (begins : Begins rest) (more : rest ≠ []) :
    ∃ token next, Reads cursor [token] next ∧ token.kind = (Lexeme.read rest).kind ∧
      token.text = String.ofList (Lexeme.read rest).text ∧
      next.rest = rest.drop (Lexeme.read rest).width := by
  have here := skipped_rest text blank begins
  refine ⟨cursor.token.1,cursor.token.2,Reads.single_iff.mpr ⟨rfl,?_⟩,?_,?_,?_⟩
  · simpa [token,here,Lexeme.read_eq_eof_iff] using more
  · simp [token,here]
  · simp [token,here]
  · simp [token,here,pass_rest]

end Cursor

theorem isSymbolChar_not_space {c : Char} (symbol : isSymbolChar c = true) :
    isHorizontalSpace c = false := by
  simp [isSymbolChar] at symbol
  simp [symbol]

theorem Lexeme.read_bare {c : Char} (rest : List Char) (symbol : isSymbolChar c = true)
    (noCommand : c ≠ '#') : read (c :: rest) = word .symbol (c :: rest.takeWhile isSymbolChar) := by
  simp [isSymbolChar] at symbol
  unfold read
  split <;> simp_all [isSymbolChar]

theorem Lexeme.read_quoted {body : List Char} (rest : List Char) (plain : ∀ c ∈ body, bodyChar c = true) :
    read ('\'' :: (body ++ '\'' :: rest)) = ⟨.symbol,body,body.length+2⟩ := by
  have stop : ∀ c ∈ ('\'' :: rest).head?, bodyChar c = false := by simp [bodyChar]
  simp [read,quotation,takeWhile_append_of_stop plain stop]

theorem symbolSource_read {symbol written : String} (source : symbolSource symbol = .ok written)
    {tail : List Char} (apart : Apart tail) : Begins (written.toList ++ tail) ∧
      Lexeme.read (written.toList ++ tail) = ⟨.symbol,symbol.toList,written.toList.length⟩ := by
  unfold symbolSource at source
  split at source
  · rename_i bare
    cases source
    simp only [isBare,Bool.and_eq_true,Bool.not_eq_true',Bool.or_eq_false_iff,List.all_eq_true] at bare
    obtain ⟨⟨⟨some,noCommand⟩,noComment⟩,symbols⟩ := bare
    cases shape : symbol.toList with
    | nil => simp [shape] at some
    | cons c cs =>
      rw [shape] at noCommand noComment symbols
      have first := symbols c (by simp)
      refine ⟨⟨?_,?_⟩,?_⟩
      · simpa using isSymbolChar_not_space first
      · cases cs with
        | nil =>
          cases tail with
          | nil => simp [List.isPrefixOf]
          | cons next tail =>
            have other : next ≠ '/' := by
              intro same
              have stops := apart next rfl
              simp [same,isSymbolChar,isHorizontalSpace] at stops
            simp [List.isPrefixOf,Ne.symm other]
        | cons next cs => simpa [List.isPrefixOf] using noComment
      · have command : c ≠ '#' := by intro same; simp [same] at noCommand
        rw [List.cons_append,Lexeme.read_bare _ first command,
          takeWhile_append_of_stop (fun c member => symbols c (List.mem_cons_of_mem _ member)) apart]
        rfl
  · split at source
    · cases source
    · rename_i plain
      cases source
      have body : ∀ c ∈ symbol.toList, Lexeme.bodyChar c = true := by
        intro c member
        have noQuote : c ≠ '\'' := fun same => plain (.inl (same ▸ member))
        have noEnd : c ≠ '\n' := fun same => plain (.inr (same ▸ member))
        simp [Lexeme.bodyChar,noQuote,noEnd]
      have quoted : ("'" ++ symbol ++ "'").toList = '\'' :: (symbol.toList ++ ['\'']) := by simp
      show Begins (("'" ++ symbol ++ "'").toList ++ tail) ∧
        Lexeme.read (("'" ++ symbol ++ "'").toList ++ tail) =
          ⟨.symbol,symbol.toList,("'" ++ symbol ++ "'").toList.length⟩
      rw [quoted,List.cons_append,List.append_assoc,List.singleton_append,Lexeme.read_quoted tail body]
      refine ⟨⟨by simp [isHorizontalSpace],by simp [List.isPrefixOf]⟩,?_⟩
      simp

namespace Cursor

theorem reads_symbol {symbol written : String} (source : symbolSource symbol = .ok written)
    {cursor : Cursor} (blanks : List Char) {tail : List Char}
    (text : cursor.rest = blanks ++ (written.toList ++ tail))
    (blank : ∀ c ∈ blanks, isHorizontalSpace c = true) (apart : Apart tail) :
    ∃ token next, Reads cursor [token] next ∧ token.kind = .symbol ∧ token.text = symbol ∧
      next.rest = tail := by
  obtain ⟨begins,lexeme⟩ := symbolSource_read source apart
  have more : written.toList ++ tail ≠ [] := by
    intro ended
    rw [ended] at lexeme
    cases lexeme
  obtain ⟨token,next,reads,kind,spelled,rest⟩ := reads_lexeme text blank begins more
  rw [lexeme] at kind spelled rest
  exact ⟨token,next,reads,kind,by simpa using spelled,by simpa using rest⟩

theorem reads_mark {cursor : Cursor} (blanks mark : List Char) {tail : List Char}
    {kind : TokenKind} (text : cursor.rest = blanks ++ (mark ++ tail))
    (blank : ∀ c ∈ blanks, isHorizontalSpace c = true) (begins : Begins (mark ++ tail))
    (lexeme : Lexeme.read (mark ++ tail) = Lexeme.word kind mark) (some : mark ≠ []) :
    ∃ token next, Reads cursor [token] next ∧ token.kind = kind ∧
      token.text = String.ofList mark ∧ next.rest = tail := by
  obtain ⟨token,next,reads,same,spelled,rest⟩ := reads_lexeme text blank begins (by simp [some])
  rw [lexeme] at same spelled rest
  exact ⟨token,next,reads,same,spelled,by simpa [Lexeme.word] using rest⟩

end Cursor

theorem Lexeme.read_symbol_plain (text : List Char) (symbol : (read text).kind = .symbol) :
    ∀ c ∈ (read text).text, c ≠ '\'' ∧ c ≠ '\n' := by
  have quoted : ∀ c, bodyChar c = true → c ≠ '\'' ∧ c ≠ '\n' := by simp [bodyChar]
  have bare : ∀ c, isSymbolChar c = true → c ≠ '\'' ∧ c ≠ '\n' := by simp +contextual [isSymbolChar]
  revert symbol
  unfold read
  split
  case h_2 rest =>
    unfold quotation
    dsimp only
    split
    · intro _ c member
      exact quoted c (List.mem_takeWhile_imp member)
    · intro symbol
      cases symbol
  case h_9 first rest _ _ _ _ _ _ _ =>
    split
    · rename_i symbolFirst
      intro _ c member
      rcases List.mem_cons.mp member with rfl | later
      · exact bare c symbolFirst
      · exact bare c (List.mem_takeWhile_imp later)
    · intro symbol
      cases symbol
  all_goals
    intro symbol
    cases symbol

theorem Cursor.Reads.writable {cursor last : Cursor} {tokens : List Token}
    (reads : Reads cursor tokens last) :
    ∀ token ∈ tokens, token.kind = .symbol → Writable token.text := by
  induction reads with
  | done => simp
  | @more cursor last tokens more _ ih =>
    intro token member symbol
    rcases List.mem_cons.mp member with rfl | later
    · have plain := Lexeme.read_symbol_plain cursor.skipped.rest symbol
      constructor
      · intro quote
        exact (plain _ (by simpa [Cursor.token] using quote)).1 rfl
      · intro lineEnd
        exact (plain _ (by simpa [Cursor.token] using lineEnd)).2 rfl
    · exact ih token later symbol

end TapeMachine
