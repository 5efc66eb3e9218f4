import TapeMachine.Proofs.Lexing

-- How tokens are spelled and what stands between them, without regard to how they are read.
-- Reading takes just the spelling that stands at the beginning of a text, and one stands at the
-- beginning of every text once blanks and comments are out of the way.
namespace TapeMachine

def marks : List (TokenKind × List Char) :=
  [(.rightArrow,['-','>']),(.leftArrow,['<','-']),(.bra,['[']),(.ket,[']']),(.newLine,['\n'])]

def Blank (c : Char) : Prop := c ∈ ['\t','\x0c','\r',' ']

def Wordy (c : Char) : Prop := ¬Blank c ∧ c ≠ '\'' ∧ ∀ mark ∈ marks, mark.2.head? ≠ some c

def Plain (body : List Char) : Prop := ∀ c ∈ body, c ≠ '\'' ∧ c ≠ '\n'

def WordEnds (after : List Char) : Prop := ∀ c ∈ after.head?, ¬Wordy c

def LineEnds (after : List Char) : Prop := ∀ c ∈ after.head?, c = '\n'

inductive TokenKind.Spelled : TokenKind → List Char → List Char → List Char → Prop where
  | bare {word after : List Char} : word ≠ [] → (∀ c ∈ word, Wordy c) → ¬['#'] <+: word →
      ¬['/','/'] <+: word → WordEnds after → Spelled .symbol word word after
  | command {name after : List Char} : (∀ c ∈ name, Wordy c) → WordEnds after →
      Spelled .command ('#' :: name) ('#' :: name) after
  | quoted {body after : List Char} : Plain body →
      Spelled .symbol body ('\'' :: (body ++ ['\''])) after
  | unclosed {body after : List Char} : Plain body → LineEnds after →
      Spelled .unclosed body ('\'' :: body) after
  | mark {kind : TokenKind} {mark after : List Char} : (kind,mark) ∈ marks →
      Spelled kind mark mark after
  | dash {after : List Char} : after.head? ≠ some '>' → Spelled .unknown ['-'] ['-'] after
  | less {after : List Char} : after.head? ≠ some '-' → Spelled .unknown ['<'] ['<'] after
  | ended : Spelled .eof [] [] []

inductive Gap : List Char → List Char → Prop where
  | blanks {blanks after : List Char} : (∀ c ∈ blanks, Blank c) → Gap blanks after
  | comment {blanks remark after : List Char} : (∀ c ∈ blanks, Blank c) →
      (∀ c ∈ remark, c ≠ '\n') → LineEnds after → Gap (blanks ++ '/' :: '/' :: remark) after

theorem isHorizontalSpace_iff (c : Char) : isHorizontalSpace c = true ↔ Blank c := by
  simp [isHorizontalSpace,Blank]

theorem isSymbolChar_iff (c : Char) : isSymbolChar c = true ↔ Wordy c := by
  simp [isSymbolChar,Wordy,marks,← isHorizontalSpace_iff]
  grind

theorem isSymbolChar_eq_false_iff (c : Char) : isSymbolChar c = false ↔ ¬Wordy c := by
  rw [← isSymbolChar_iff,Bool.not_eq_true]

theorem bodyChar_iff (c : Char) : Lexeme.bodyChar c = true ↔ c ≠ '\'' ∧ c ≠ '\n' := by
  simp [Lexeme.bodyChar]

theorem begins_of {c : Char} (rest : List Char) (visible : isHorizontalSpace c = false)
    (noSlash : c ≠ '/') : Begins (c :: rest) := by
  refine ⟨by simpa using visible,?_⟩
  simp [List.isPrefixOf,noSlash.symm]

theorem Lexeme.read_dash {after : List Char} (other : after.head? ≠ some '>') :
    read ('-' :: after) = word .unknown ['-'] := by
  unfold read
  split
  case h_9 same => cases same; rfl
  all_goals simp_all

theorem Lexeme.read_less {after : List Char} (other : after.head? ≠ some '-') :
    read ('<' :: after) = word .unknown ['<'] := by
  unfold read
  split
  case h_9 same => cases same; rfl
  all_goals simp_all

namespace TokenKind.Spelled

variable {kind : TokenKind} {text lexeme after : List Char}

theorem begins (spelled : kind.Spelled text lexeme after) : Begins (lexeme ++ after) := by
  cases spelled with
  | @bare _ _ more wordy _ noComment ends =>
    obtain ⟨c,rest,rfl⟩ := List.exists_cons_of_ne_nil more
    refine ⟨by simpa [← Bool.not_eq_true,isHorizontalSpace_iff] using (wordy c (by simp)).1,?_⟩
    refine Bool.eq_false_iff.mpr fun comment => ?_
    have slashes := List.isPrefixOf_iff_prefix.mp comment
    cases rest with
    | cons d rest => exact noComment (by simpa using slashes)
    | nil =>
      -- The word would go on with the other slash.
      obtain ⟨rfl,slash⟩ : '/' = c ∧ ['/'] <+: after := by simpa using slashes
      obtain ⟨rest,rfl⟩ := slash
      exact ends '/' (by simp) (wordy '/' (by simp))
  | command | quoted | unclosed | dash | less => exact begins_of _ (by decide) (by decide)
  | ended => exact ⟨by simp,rfl⟩
  | mark member =>
    simp only [marks,List.mem_cons,List.not_mem_nil,Prod.mk.injEq,or_false] at member
    rcases member with ⟨rfl,rfl⟩ | ⟨rfl,rfl⟩ | ⟨rfl,rfl⟩ | ⟨rfl,rfl⟩ | ⟨rfl,rfl⟩ <;>
      exact begins_of _ (by decide) (by decide)

theorem read_eq (spelled : kind.Spelled text lexeme after) :
    Lexeme.read (lexeme ++ after) = ⟨kind,text,lexeme.length⟩ := by
  have wordRun {word : List Char} (wordy : ∀ c ∈ word, Wordy c) (ends : WordEnds after) :
      (word ++ after).takeWhile isSymbolChar = word :=
    takeWhile_append_of_stop (fun c member => (isSymbolChar_iff c).mpr (wordy c member))
      fun c next => (isSymbolChar_eq_false_iff c).mpr (ends c next)
  have plainBody {body : List Char} (plain : Plain body) : ∀ c ∈ body, Lexeme.bodyChar c = true :=
    fun c member => (bodyChar_iff c).mpr (plain c member)
  cases spelled with
  | bare more wordy noCommand _ ends =>
    obtain ⟨c,rest,rfl⟩ := List.exists_cons_of_ne_nil more
    have symbol := (isSymbolChar_iff c).mpr (wordy c (by simp))
    rw [List.cons_append,Lexeme.read_bare _ symbol (by simpa [eq_comm] using noCommand),
      wordRun (fun c member => wordy c (List.mem_cons_of_mem _ member)) ends]
    rfl
  | command wordy ends =>
    rw [List.cons_append,Lexeme.read,wordRun wordy ends]
    rfl
  | quoted plain =>
    rw [List.cons_append,List.append_assoc,List.singleton_append,Lexeme.read_quoted _ (plainBody plain)]
    simp
  | unclosed plain ends =>
    have stop : ∀ c ∈ after.head?, Lexeme.bodyChar c = false := by
      intro c next
      rw [ends c next]
      rfl
    have noQuote : after.head? ≠ some '\'' := fun quote => by simpa using ends '\'' quote
    simp [Lexeme.read,Lexeme.quotation,takeWhile_append_of_stop (plainBody plain) stop,noQuote]
  | mark member =>
    simp only [marks,List.mem_cons,List.not_mem_nil,Prod.mk.injEq,or_false] at member
    rcases member with ⟨rfl,rfl⟩ | ⟨rfl,rfl⟩ | ⟨rfl,rfl⟩ | ⟨rfl,rfl⟩ | ⟨rfl,rfl⟩ <;> rfl
  | dash other => exact Lexeme.read_dash other
  | less other => exact Lexeme.read_less other
  | ended => rfl

theorem nothing_after_end (spelled : TokenKind.eof.Spelled text lexeme after) : after = [] := by
  cases spelled with
  | mark member => simp [marks] at member
  | ended => rfl

theorem lexeme_ne_nil (spelled : kind.Spelled text lexeme after) (more : kind ≠ .eof) : lexeme ≠ [] := by
  cases spelled with
  | bare some => exact some
  | mark member =>
    rintro rfl
    simp [marks] at member
  | ended => contradiction
  | _ => simp

end TokenKind.Spelled

theorem exists_run (p : Char → Bool) (text : List Char) :
    ∃ run after, text = run ++ after ∧ (∀ c ∈ run, p c = true) ∧ ∀ c ∈ after.head?, p c = false := by
  refine ⟨text.takeWhile p,text.dropWhile p,List.takeWhile_append_dropWhile.symm,
    fun c member => List.mem_takeWhile_imp member,?_⟩
  intro c next
  have stop := List.head?_dropWhile_not p text
  rw [next] at stop
  exact stop

theorem exists_word (text : List Char) :
    ∃ word after, text = word ++ after ∧ (∀ c ∈ word, Wordy c) ∧ WordEnds after := by
  simpa only [isSymbolChar_iff,isSymbolChar_eq_false_iff,WordEnds] using exists_run isSymbolChar text

theorem exists_quotation (rest : List Char) : ∃ kind body lexeme after,
    '\'' :: rest = lexeme ++ after ∧ TokenKind.Spelled kind body lexeme after := by
  obtain ⟨body,after,rfl,plain,stop⟩ := exists_run Lexeme.bodyChar rest
  simp only [bodyChar_iff] at plain
  by_cases closed : after.head? = some '\''
  · obtain ⟨after,rfl⟩ := List.head?_eq_some_iff.mp closed
    exact ⟨_,_,'\'' :: (body ++ ['\'']),after,by simp,.quoted plain⟩
  · refine ⟨_,_,'\'' :: body,after,rfl,.unclosed plain fun c next => ?_⟩
    have ends := stop c next
    simp only [Lexeme.bodyChar,Bool.not_eq_false',Bool.or_eq_true,beq_iff_eq] at ends
    rcases ends with rfl | lineEnd
    · exact absurd next closed
    · exact lineEnd

theorem exists_mark {c : Char} (rest : List Char) (beginsMark : ∃ mark ∈ marks, mark.2.head? = some c) :
    ∃ kind body lexeme after, c :: rest = lexeme ++ after ∧ TokenKind.Spelled kind body lexeme after := by
  obtain ⟨mark,member,first⟩ := beginsMark
  simp only [marks,List.mem_cons,List.not_mem_nil,or_false] at member
  rcases member with rfl | rfl | rfl | rfl | rfl <;> cases first
  · by_cases arrow : rest.head? = some '>'
    · obtain ⟨after,rfl⟩ := List.head?_eq_some_iff.mp arrow
      exact ⟨.rightArrow,['-','>'],_,after,rfl,.mark (by decide)⟩
    · exact ⟨_,_,_,rest,rfl,.dash arrow⟩
  · by_cases arrow : rest.head? = some '-'
    · obtain ⟨after,rfl⟩ := List.head?_eq_some_iff.mp arrow
      exact ⟨.leftArrow,['<','-'],_,after,rfl,.mark (by decide)⟩
    · exact ⟨_,_,_,rest,rfl,.less arrow⟩
  · exact ⟨.bra,['['],_,rest,rfl,.mark (by decide)⟩
  · exact ⟨.ket,[']'],_,rest,rfl,.mark (by decide)⟩
  · exact ⟨.newLine,['\n'],_,rest,rfl,.mark (by decide)⟩

theorem exists_spelled {text : List Char} (begins : Begins text) :
    ∃ kind body lexeme after, text = lexeme ++ after ∧ TokenKind.Spelled kind body lexeme after := by
  cases text with
  | nil => exact ⟨_,_,_,_,rfl,.ended⟩
  | cons c rest =>
    by_cases quote : c = '\''
    · exact quote ▸ exists_quotation rest
    by_cases wordless : Wordy c
    · obtain ⟨word,after,rfl,wordy,ends⟩ := exists_word rest
      by_cases command : c = '#'
      · exact ⟨_,_,'#' :: word,after,by rw [command]; rfl,.command wordy ends⟩
      · refine ⟨_,_,c :: word,after,rfl,.bare (by simp) ?_ (by simpa [eq_comm] using command) ?_ ends⟩
        · simpa using ⟨wordless,wordy⟩
        · intro slashes
          have comment := List.isPrefixOf_iff_prefix.mpr (slashes.trans (List.prefix_append _ after))
          exact Bool.noConfusion (begins.2.symm.trans comment)
    · refine exists_mark rest ?_
      have visible : ¬Blank c := by
        simpa [← isHorizontalSpace_iff] using begins.1 c rfl
      simpa [Wordy,visible,quote] using wordless

theorem exists_gap (text : List Char) : ∃ passed rest, text = passed ++ rest ∧ Gap passed rest ∧ Begins rest := by
  obtain ⟨blanks,rest,rfl,blank,stop⟩ := exists_run isHorizontalSpace text
  simp only [isHorizontalSpace_iff] at blank
  by_cases comment : ['/','/'] <+: rest
  · obtain ⟨rest,rfl⟩ := comment
    obtain ⟨remark,after,rfl,inLine,ends⟩ := exists_run (· ≠ '\n') rest
    simp only [decide_eq_true_eq,decide_eq_false_iff_not,Decidable.not_not] at inLine ends
    refine ⟨blanks ++ '/' :: '/' :: remark,after,by simp,.comment blank inLine ends,?_⟩
    cases after with
    | nil => exact ⟨by simp,rfl⟩
    | cons c after =>
      obtain rfl := ends c rfl
      exact begins_of after (by decide) (by decide)
  · exact ⟨blanks,rest,rfl,.blanks blank,stop,Bool.eq_false_iff.mpr fun slashes =>
      comment (List.isPrefixOf_iff_prefix.mp slashes)⟩

end TapeMachine
