import TapeMachine.Proofs.Tiling

-- Tokens read by the numbers of characters, in loops that nothing bounds. Two things could go
-- wrong here that a text taken apart from the front rules out: a character may be asked for where
-- there is none, and a loop may go on for ever. Neither happens, and what is read is the same.
namespace TapeMachine

structure Scanner where
  text : List Char
  offset : Nat
  lineStart : Nat
  row : Nat

namespace Scanner

inductive Fault where
  | outside
  | unended

end Scanner

abbrev Scans := EStateM Scanner.Fault Scanner

namespace Scanner

def exhausted (scanner : Scanner) : Bool := decide (scanner.text.length ≤ scanner.offset)

def position (scanner : Scanner) : Position := ⟨scanner.row,scanner.offset - scanner.lineStart⟩

def since (start : Nat) (scanner : Scanner) : String :=
  String.ofList ((scanner.text.take scanner.offset).drop start)

def goesOnWith (mark : List Char) (scanner : Scanner) : Bool :=
  mark.isPrefixOf (scanner.text.drop scanner.offset)

def current : Scans Char := fun scanner =>
  match scanner.text[scanner.offset]? with
  | some c => .ok c scanner
  | none => .error .outside scanner

def advance : Scans Unit := do
  let c ← current
  modify fun scanner =>
    let offset := scanner.offset+1
    if c = '\n' then ⟨scanner.text,offset,offset,scanner.row+1⟩
    else ⟨scanner.text,offset,scanner.lineStart,scanner.row⟩

def advanceBy : Nat → Scans Unit
  | 0 => pure ()
  | count+1 => do
    advance
    advanceBy count

def advanceWhile (keep : Char → Bool) : Nat → Scans Unit
  | 0 => throw .unended
  | rounds+1 => do
    if (← get).exhausted then pure ()
    else if keep (← current) then
      advance
      advanceWhile keep rounds
    else pure ()

def skip (rounds : Nat) : Scans Unit := do
  advanceWhile isHorizontalSpace rounds
  if (← get).goesOnWith ['/','/'] then advanceWhile (· ≠ '\n') rounds
  else pure ()

def word (kind : TokenKind) (rounds : Nat) : Scans Token := do
  let start ← get
  advance
  advanceWhile isSymbolChar rounds
  return ⟨kind,(← get).since start.offset,start.position⟩

def quotation (rounds : Nat) : Scans Token := do
  let mark ← get
  advance
  let start ← get
  advanceWhile Lexeme.bodyChar rounds
  let scanner ← get
  let body := scanner.since start.offset
  if scanner.exhausted then return ⟨.unclosed,body,mark.position⟩
  else if (← current) = '\n' then return ⟨.unclosed,body,mark.position⟩
  else
    advance
    return ⟨.symbol,body,mark.position⟩

def markAmong : List (TokenKind × List Char) → Scans Token
  | [] => do
    let start ← get
    let c ← current
    advance
    return ⟨.unknown,String.singleton c,start.position⟩
  | (kind,mark) :: others => do
    let start ← get
    if start.goesOnWith mark then
      advanceBy mark.length
      return ⟨kind,String.ofList mark,start.position⟩
    else markAmong others

def token (rounds : Nat) : Scans Token := do
  skip rounds
  let scanner ← get
  if scanner.exhausted then return ⟨.eof,"",scanner.position⟩
  else
    let c ← current
    if c = '\'' then quotation rounds
    else if c = '#' then word .command rounds
    else if isSymbolChar c then word .symbol rounds
    else markAmong marks

def peek (rounds : Nat) : Scans Token := do
  let saved ← get
  let found ← token rounds
  set saved
  return found

def tokens : Nat → Scans (List Token)
  | 0 => throw .unended
  | rounds+1 => do
    let found ← token (rounds+1)
    if found.kind = .eof then return []
    else
      let later ← tokens rounds
      return found :: later

end Scanner

def Cursor.scanner (text : List Char) (cursor : Cursor) : Scanner :=
  ⟨text,cursor.offset,cursor.lineStart,cursor.row⟩

namespace Scanner

def behind (before rest : List Char) : Scanner := (Cursor.behind before rest).scanner (before ++ rest)

theorem bind_ok {α β : Type} {first : Scans α} {next : α → Scans β} {scanner after : Scanner} {a : α}
    (done : first scanner = .ok a after) : (first >>= next) scanner = next a after := by
  show EStateM.bind first next scanner = _
  simp [EStateM.bind,done]

theorem get_bind {β : Type} (next : Scanner → Scans β) (scanner : Scanner) :
    (get >>= next : Scans β) scanner = next scanner scanner := rfl

theorem exhausted_behind (before rest : List Char) : (behind before rest).exhausted = rest.isEmpty := by
  cases rest <;> simp [exhausted,behind,Cursor.scanner,Cursor.behind]

theorem position_behind (before rest : List Char) : (behind before rest).position = .past before :=
  Cursor.position_behind before rest

theorem goesOnWith_behind (mark before rest : List Char) :
    (behind before rest).goesOnWith mark = mark.isPrefixOf rest := by
  simp [goesOnWith,behind,Cursor.scanner,Cursor.behind]

theorem since_behind (before passed rest after : List Char) :
    (behind (before ++ passed) after).since (behind before rest).offset = String.ofList passed := by
  have whole : (behind (before ++ passed) after).text.take (before ++ passed).length = before ++ passed :=
    List.take_left
  rw [since,show (behind (before ++ passed) after).offset = (before ++ passed).length from rfl,whole]
  simp [behind,Cursor.scanner,Cursor.behind]

theorem current_behind (before rest : List Char) (c : Char) :
    current (behind before (c :: rest)) = .ok c (behind before (c :: rest)) := by
  simp [current,behind,Cursor.scanner,Cursor.behind]

theorem advance_behind (before rest : List Char) (c : Char) :
    advance (behind before (c :: rest)) = .ok () (behind (before ++ [c]) rest) := by
  have onward : (behind (before ++ [c]) rest) =
      (Cursor.behind before (c :: rest)).next.scanner (before ++ c :: rest) := by
    rw [Cursor.next_behind,behind,List.append_assoc,List.singleton_append]
  rw [onward,advance,bind_ok (current_behind before rest c)]
  show EStateM.Result.ok () (ite _ _ _) = _
  by_cases lineEnd : c = '\n' <;> simp [lineEnd,behind,Cursor.scanner,Cursor.behind,Cursor.next]

theorem advanceBy_behind (before passed rest : List Char) :
    advanceBy passed.length (behind before (passed ++ rest)) = .ok () (behind (before ++ passed) rest) := by
  induction passed generalizing before with
  | nil => simp [advanceBy]; rfl
  | cons c passed ih =>
    rw [List.cons_append,List.length_cons,advanceBy,bind_ok (advance_behind ..),ih]
    simp

theorem advanceWhile_end (keep : Char → Bool) (rounds : Nat) (before : List Char) :
    advanceWhile keep (rounds+1) (behind before []) = .ok () (behind before []) := by
  rw [advanceWhile,get_bind,exhausted_behind]
  rfl

theorem advanceWhile_cons (keep : Char → Bool) (rounds : Nat) (before rest : List Char) (c : Char) :
    advanceWhile keep (rounds+1) (behind before (c :: rest)) =
      if keep c then advanceWhile keep rounds (behind (before ++ [c]) rest)
      else .ok () (behind before (c :: rest)) := by
  rw [advanceWhile,get_bind,exhausted_behind]
  show (current >>= _ : Scans Unit) _ = _
  rw [bind_ok (current_behind ..)]
  split
  · rw [bind_ok (advance_behind ..)]
  · rfl

-- A loop takes one more round than it passes characters.
theorem advanceWhile_behind {keep : Char → Bool} {passed rest : List Char}
    (kept : ∀ c ∈ passed, keep c = true) (stop : ∀ c ∈ rest.head?, keep c = false)
    {rounds : Nat} (enough : passed.length < rounds) (before : List Char) :
    advanceWhile keep rounds (behind before (passed ++ rest)) = .ok () (behind (before ++ passed) rest) := by
  induction passed generalizing before rounds with
  | nil =>
    obtain ⟨rounds,rfl⟩ := Nat.exists_eq_add_of_lt enough
    rw [List.append_nil]
    cases rest with
    | nil => exact advanceWhile_end ..
    | cons c rest => exact (advanceWhile_cons ..).trans (if_neg (by simp [stop c rfl]))
  | cons c passed ih =>
    obtain ⟨rounds,rfl⟩ := Nat.exists_eq_add_of_lt (Nat.zero_lt_of_lt enough)
    have more : passed.length < rounds := by simpa using enough
    rw [Nat.zero_add,List.cons_append,advanceWhile_cons,if_pos (kept c List.mem_cons_self),
      ih (fun c member => kept c (List.mem_cons_of_mem _ member)) more]
    simp

theorem skip_behind {passed rest : List Char} (gap : Gap passed rest) (begins : Begins rest)
    {rounds : Nat} (enough : passed.length < rounds) (before : List Char) :
    skip rounds (behind before (passed ++ rest)) = .ok () (behind (before ++ passed) rest) := by
  cases gap with
  | blanks blank =>
    simp only [← isHorizontalSpace_iff] at blank
    rw [skip,bind_ok (advanceWhile_behind blank begins.1 enough before),get_bind,goesOnWith_behind,
      begins.2]
    rfl
  | @comment blanks remark _ blank inLine ends =>
    simp only [← isHorizontalSpace_iff] at blank
    simp only [List.length_append,List.length_cons] at enough
    have slashes : (blanks ++ '/' :: '/' :: remark) ++ rest = blanks ++ (('/' :: '/' :: remark) ++ rest) :=
      List.append_assoc ..
    have comment : ['/','/'].isPrefixOf (('/' :: '/' :: remark) ++ rest) = true := by simp
    rw [slashes,skip,bind_ok (advanceWhile_behind blank (by simp [isHorizontalSpace]) (by omega) before),
      get_bind,goesOnWith_behind,if_pos comment,advanceWhile_behind,List.append_assoc]
    · simpa using inLine
    · intro c next
      simp [ends c next]
    · simp only [List.length_cons]
      omega

theorem word_behind {c : Char} {body after : List Char} (wordy : ∀ c ∈ body, Wordy c)
    (ends : WordEnds after) {rounds : Nat} (enough : body.length < rounds) (kind : TokenKind)
    (before : List Char) : word kind rounds (behind before (c :: (body ++ after))) =
      .ok ⟨kind,String.ofList (c :: body),.past before⟩ (behind (before ++ c :: body) after) := by
  have kept : ∀ c ∈ body, isSymbolChar c = true := fun c member => (isSymbolChar_iff c).mpr (wordy c member)
  have stop : ∀ c ∈ after.head?, isSymbolChar c = false :=
    fun c next => (isSymbolChar_eq_false_iff c).mpr (ends c next)
  rw [word,get_bind,bind_ok (advance_behind ..),bind_ok (advanceWhile_behind kept stop enough _),get_bind,
    position_behind,List.append_assoc,List.singleton_append,since_behind]
  rfl

theorem quotation_behind {body after : List Char} (plain : Plain body)
    (stop : ∀ c ∈ after.head?, c = '\'' ∨ c = '\n') {rounds : Nat} (enough : body.length < rounds)
    (before : List Char) : quotation rounds (behind before ('\'' :: (body ++ after))) =
      if after.head? = some '\'' then .ok ⟨.symbol,String.ofList body,.past before⟩
        (behind (before ++ '\'' :: (body ++ ['\''])) after.tail)
      else .ok ⟨.unclosed,String.ofList body,.past before⟩ (behind (before ++ '\'' :: body) after) := by
  have kept : ∀ c ∈ body, Lexeme.bodyChar c = true := fun c member => (bodyChar_iff c).mpr (plain c member)
  have ends : ∀ c ∈ after.head?, Lexeme.bodyChar c = false := by
    intro c next
    rcases stop c next with rfl | rfl <;> rfl
  rw [quotation,get_bind,bind_ok (advance_behind ..),get_bind,
    bind_ok (advanceWhile_behind kept ends enough _),get_bind,since_behind,position_behind,exhausted_behind,
    List.append_assoc,List.singleton_append]
  cases after with
  | nil => rfl
  | cons c rest =>
    show (current >>= _ : Scans Token) _ = _
    rw [bind_ok (current_behind ..)]
    rcases stop c rfl with rfl | rfl
    · rw [if_neg (by decide),bind_ok (advance_behind ..),List.append_assoc,List.cons_append]
      rfl
    · rfl

theorem markAmong_cons (kind : TokenKind) (mark : List Char) (others : List (TokenKind × List Char))
    (before rest : List Char) : markAmong ((kind,mark) :: others) (behind before rest) =
      if mark.isPrefixOf rest then (advanceBy mark.length >>= fun _ =>
        pure ⟨kind,String.ofList mark,.past before⟩ : Scans Token) (behind before rest)
      else markAmong others (behind before rest) := by
  rw [markAmong,get_bind,goesOnWith_behind,position_behind]
  split <;> rfl

theorem markAmong_mark {kind : TokenKind} {mark : List Char} (member : (kind,mark) ∈ marks)
    (before after : List Char) : markAmong marks (behind before (mark ++ after)) =
      .ok ⟨kind,String.ofList mark,.past before⟩ (behind (before ++ mark) after) := by
  have found : markAmong marks (behind before (mark ++ after)) = (advanceBy mark.length >>= fun _ =>
      pure ⟨kind,String.ofList mark,.past before⟩ : Scans Token) (behind before (mark ++ after)) := by
    simp only [marks,List.mem_cons,List.not_mem_nil,Prod.mk.injEq,or_false] at member
    -- No mark begins like another one, so those before it are passed over.
    rcases member with ⟨rfl,rfl⟩ | ⟨rfl,rfl⟩ | ⟨rfl,rfl⟩ | ⟨rfl,rfl⟩ | ⟨rfl,rfl⟩ <;>
      simp [marks,markAmong_cons]
  rw [found,bind_ok (advanceBy_behind ..)]
  rfl

theorem markAmong_stray {table : List (TokenKind × List Char)} {c : Char} {rest : List Char}
    (none : ∀ entry ∈ table, entry.2.isPrefixOf (c :: rest) = false) (before : List Char) :
    markAmong table (behind before (c :: rest)) =
      .ok ⟨.unknown,String.singleton c,.past before⟩ (behind (before ++ [c]) rest) := by
  induction table with
  | nil =>
    rw [markAmong,get_bind,position_behind,bind_ok (current_behind ..),bind_ok (advance_behind ..)]
    rfl
  | cons entry table ih =>
    obtain ⟨here,later⟩ := List.forall_mem_cons.mp none
    rw [markAmong_cons,here,if_neg Bool.false_ne_true,ih later]

theorem token_behind {passed rest : List Char} {c : Char} (gap : Gap passed (c :: rest))
    (begins : Begins (c :: rest)) {rounds : Nat} (enough : passed.length < rounds) (before : List Char) :
    token rounds (behind before (passed ++ c :: rest)) =
      (if c = '\'' then quotation rounds else if c = '#' then word .command rounds
        else if isSymbolChar c then word .symbol rounds else markAmong marks)
        (behind (before ++ passed) (c :: rest)) := by
  rw [token,bind_ok (skip_behind gap begins enough before),get_bind,exhausted_behind]
  show (current >>= _ : Scans Token) _ = _
  rw [bind_ok (current_behind ..)]

theorem token_end {passed : List Char} (gap : Gap passed []) {rounds : Nat}
    (enough : passed.length < rounds) (before : List Char) :
    token rounds (behind before (passed ++ [])) =
      .ok ⟨.eof,"",.past (before ++ passed)⟩ (behind (before ++ passed) []) := by
  have begins : Begins [] := ⟨by simp,rfl⟩
  rw [token,bind_ok (skip_behind gap begins enough before),get_bind,exhausted_behind,position_behind]
  rfl

theorem no_mark {first second : Char} {after : List Char}
    (only : ∀ entry ∈ marks, entry.2.head? = some first → entry.2 = [first,second])
    (other : after.head? ≠ some second) : ∀ entry ∈ marks, entry.2.isPrefixOf (first :: after) = false := by
  intro entry member
  refine Bool.eq_false_iff.mpr fun mark => ?_
  have begun := List.isPrefixOf_iff_prefix.mp mark
  have some : entry.2 ≠ [] := by
    have all : ∀ entry ∈ marks, entry.2 ≠ [] := by decide
    exact all entry member
  have head : entry.2.head? = .some first := by
    obtain ⟨c,rest,shape⟩ := List.exists_cons_of_ne_nil some
    rw [shape] at begun ⊢
    rw [(List.cons_prefix_cons.mp begun).1,List.head?_cons]
  rw [only entry member head] at begun
  obtain ⟨rest,rfl⟩ := (List.cons_prefix_cons.mp begun).2
  exact other rfl

theorem token_of_mark {passed rest : List Char} {c : Char} (first : ∃ entry ∈ marks, entry.2.head? = some c)
    (gap : Gap passed (c :: rest)) (begins : Begins (c :: rest)) {rounds : Nat}
    (enough : passed.length < rounds) (before : List Char) :
    token rounds (behind before (passed ++ c :: rest)) = markAmong marks (behind (before ++ passed) (c :: rest)) := by
  obtain ⟨entry,member,head⟩ := first
  rw [token_behind gap begins enough]
  simp only [marks,List.mem_cons,List.not_mem_nil,or_false] at member
  rcases member with rfl | rfl | rfl | rfl | rfl <;> cases head <;> rfl

theorem token_spelled {kind : TokenKind} {text lexeme after passed : List Char}
    (gap : Gap passed (lexeme ++ after)) (spelled : kind.Spelled text lexeme after) {rounds : Nat}
    (enough : (passed ++ (lexeme ++ after)).length < rounds) (before : List Char) :
    token rounds (behind before (passed ++ (lexeme ++ after))) =
      .ok ⟨kind,String.ofList text,.past (before ++ passed)⟩ (behind (before ++ passed ++ lexeme) after) := by
  have begins := spelled.begins
  simp only [List.length_append] at enough
  have skips : passed.length < rounds := by omega
  cases spelled with
  | bare more wordy noCommand _ ends =>
    obtain ⟨c,body,rfl⟩ := List.exists_cons_of_ne_nil more
    obtain ⟨first,rest⟩ := List.forall_mem_cons.mp wordy
    have noNumber : c ≠ '#' := by
      rintro rfl
      exact noCommand (by simp)
    rw [List.length_cons] at enough
    rw [List.cons_append] at gap begins ⊢
    rw [token_behind gap begins skips,if_neg first.2.1,if_neg noNumber,
      if_pos ((isSymbolChar_iff c).mpr first),word_behind rest ends (by omega)]
  | command wordy ends =>
    rw [List.length_cons] at enough
    rw [List.cons_append] at gap begins ⊢
    rw [token_behind gap begins skips,if_neg (by decide),if_pos rfl,word_behind wordy ends (by omega)]
  | quoted plain =>
    simp only [List.length_cons,List.length_append] at enough
    rw [List.cons_append,List.append_assoc,List.singleton_append] at gap begins ⊢
    rw [token_behind gap begins skips,if_pos rfl,quotation_behind plain (by simp) (by omega)]
    rfl
  | unclosed plain ends =>
    rw [List.length_cons] at enough
    rw [List.cons_append] at gap begins ⊢
    have noQuote : after.head? ≠ some '\'' := fun quote => by simpa using ends '\'' quote
    rw [token_behind gap begins skips,if_pos rfl,
      quotation_behind plain (fun c next => .inr (ends c next)) (by omega),if_neg noQuote]
  | mark member =>
    have some : text ≠ [] := by
      rintro rfl
      simp [marks] at member
    obtain ⟨c,rest,rfl⟩ := List.exists_cons_of_ne_nil some
    rw [List.cons_append] at gap begins ⊢
    rw [token_of_mark ⟨_,member,rfl⟩ gap begins skips]
    exact markAmong_mark member _ after
  | dash other =>
    rw [List.singleton_append] at gap begins ⊢
    rw [token_of_mark (by decide) gap begins skips,markAmong_stray (no_mark (by decide) other)]
    rfl
  | less other =>
    rw [List.singleton_append] at gap begins ⊢
    rw [token_of_mark (by decide) gap begins skips,markAmong_stray (no_mark (by decide) other)]
    rfl
  | ended =>
    have here := token_end gap skips before
    simpa using here

end Scanner

theorem Tile.Fits.scanned {before after : List Char} {tile : Tile} (fits : tile.Fits before after)
    {rounds : Nat} (enough : (tile.source ++ after).length < rounds) :
    Scanner.token rounds (Scanner.behind before (tile.source ++ after)) =
      .ok tile.token (Scanner.behind (before ++ tile.source) after) := by
  rw [Tile.source,List.append_assoc] at enough ⊢
  rw [Scanner.token_spelled fits.gap fits.spelled enough,← fits.position,String.ofList_toList,
    List.append_assoc]

def Cursor.Of (text : List Char) (cursor : Cursor) : Prop :=
  ∃ before rest, text = before ++ rest ∧ cursor = .behind before rest

namespace Cursor.Of

variable {text : List Char} {cursor : Cursor}

theorem start (text : List Char) : Of text (.start text) := ⟨[],text,rfl,rfl⟩

theorem offset_add (within : Of text cursor) : cursor.offset + cursor.rest.length = text.length := by
  obtain ⟨before,rest,rfl,rfl⟩ := within
  exact List.length_append.symm

theorem tile (within : Of text cursor) : ∃ before tile after, text = before ++ (Tile.source tile ++ after) ∧
    tile.Fits before after ∧ cursor = .behind before (tile.source ++ after) ∧
    cursor.token = (tile.token,.behind (before ++ tile.source) after) := by
  obtain ⟨before,rest,rfl,rfl⟩ := within
  obtain ⟨tile,after,rfl,fits⟩ := exists_tile before rest
  exact ⟨before,tile,after,rfl,fits,rfl,fits.token_eq⟩

theorem token (within : Of text cursor) : Of text cursor.token.2 := by
  obtain ⟨before,tile,after,rfl,_,_,found⟩ := within.tile
  rw [found]
  exact ⟨before ++ tile.source,after,(List.append_assoc ..).symm,rfl⟩

theorem scanned (within : Of text cursor) {rounds : Nat} (enough : cursor.rest.length < rounds) :
    Scanner.token rounds (cursor.scanner text) = .ok cursor.token.1 (cursor.token.2.scanner text) := by
  obtain ⟨before,tile,after,rfl,fits,rfl,found⟩ := within.tile
  rw [found,← List.append_assoc before]
  have scanned := fits.scanned enough
  rw [Scanner.behind,← List.append_assoc before] at scanned
  exact scanned

theorem peeked (within : Of text cursor) {rounds : Nat} (enough : cursor.rest.length < rounds) :
    Scanner.peek rounds (cursor.scanner text) = .ok cursor.token.1 (cursor.scanner text) := by
  rw [Scanner.peek,Scanner.get_bind,Scanner.bind_ok (within.scanned enough)]
  rfl

theorem scanned_all (within : Of text cursor) {rounds : Nat} (enough : cursor.rest.length < rounds) :
    Scanner.tokens rounds (cursor.scanner text) = .ok cursor.tokens.1 (cursor.tokens.2.scanner text) := by
  induction rounds generalizing cursor with
  | zero => cases enough
  | succ rounds ih =>
    rw [Scanner.tokens,Scanner.bind_ok (within.scanned enough),Cursor.tokens]
    by_cases ended : cursor.token.1.kind = .eof
    · rw [if_pos ended,if_pos ended]
      rfl
    · have shorter := token_shorter ended
      rw [if_neg ended,if_neg ended,Scanner.bind_ok (ih within.token (by omega))]
      rfl

end Cursor.Of

end TapeMachine
