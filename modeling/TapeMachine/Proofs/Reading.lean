import TapeMachine.Program.Parser

-- Reading tokens one after the other, and which sequences of tokens a parse takes. A parse is
-- described by all that it recognizes, once for every way in which parses are put together.
namespace TapeMachine

namespace Cursor

inductive Reads : Cursor → List Token → Cursor → Prop where
  | done : Reads cursor [] cursor
  | more {cursor last : Cursor} {tokens : List Token} : cursor.token.1.kind ≠ .eof →
      Reads cursor.token.2 tokens last → Reads cursor (cursor.token.1 :: tokens) last

namespace Reads

theorem single_iff {cursor last : Cursor} {token : Token} :
    Reads cursor [token] last ↔ cursor.token = (token,last) ∧ token.kind ≠ .eof := by
  constructor
  · intro reads
    cases reads with
    | more more rest => cases rest; exact ⟨rfl,more⟩
  · intro found
    obtain ⟨read,more⟩ := found
    obtain ⟨rfl,rfl⟩ : token = cursor.token.1 ∧ last = cursor.token.2 := by rw [read]; exact ⟨rfl,rfl⟩
    exact .more more .done

theorem head_eq {cursor last : Cursor} {token : Token} {tokens : List Token}
    (reads : Reads cursor (token :: tokens) last) : cursor.token.1 = token := by
  cases reads
  rfl

theorem no_end {cursor last : Cursor} {tokens : List Token} (reads : Reads cursor tokens last) :
    ∀ token ∈ tokens, token.kind ≠ .eof := by
  induction reads with
  | done => simp
  | more more _ ih => exact List.forall_mem_cons.mpr ⟨more,ih⟩

theorem append_iff {cursor last : Cursor} {first rest : List Token} :
    Reads cursor (first ++ rest) last ↔
      ∃ middle, Reads cursor first middle ∧ Reads middle rest last := by
  constructor
  · intro reads
    induction first generalizing cursor with
    | nil => exact ⟨cursor,.done,reads⟩
    | cons token first ih =>
      cases reads with
      | more more later =>
        obtain ⟨middle,start,finish⟩ := ih later
        exact ⟨middle,.more more start,finish⟩
  · intro found
    obtain ⟨middle,start,finish⟩ := found
    induction start with
    | done => exact finish
    | more more _ ih => exact .more more (ih finish)

theorem andThen {cursor middle last : Cursor} {token : Token} {tokens : List Token}
    (first : Reads cursor [token] middle) (rest : Reads middle tokens last) :
    Reads cursor (token :: tokens) last :=
  append_iff.mpr ⟨middle,first,rest⟩

theorem tokens_eq {cursor last : Cursor} {tokens : List Token} (reads : Reads cursor tokens last)
    (ended : last.token.1.kind = .eof) : cursor.tokens.1 = tokens := by
  induction reads with
  | done =>
    rw [Cursor.tokens]
    simp [ended]
  | more more _ ih =>
    rw [Cursor.tokens]
    simp [more,ih ended]

theorem of_tokens (cursor : Cursor) :
    ∃ last, Reads cursor cursor.tokens.1 last ∧ last.token.1.kind = .eof := by
  fun_induction Cursor.tokens cursor with
  | case1 cursor read ended => exact ⟨cursor,.done,ended⟩
  | case2 cursor read more later last rest ih =>
    obtain ⟨last,reads,ended⟩ := ih
    rw [rest] at reads
    exact ⟨last,.more more reads,ended⟩

theorem tokens_append {cursor last : Cursor} {tokens : List Token} (reads : Reads cursor tokens last) :
    cursor.tokens.1 = tokens ++ last.tokens.1 := by
  obtain ⟨_,later,ended⟩ := of_tokens last
  exact (append_iff.mpr ⟨last,reads,later⟩).tokens_eq ended

end Reads

end Cursor

namespace Parser
open Cursor

def Recognizes (parse : Parses α) (spells : List Token → α → Prop) : Prop :=
  ∀ parser a last, (∃ accepted, parse parser = .ok a ⟨last,accepted⟩) ↔
    ∃ tokens, Reads parser.cursor tokens last ∧ spells tokens a

namespace Recognizes

theorem congr {parse : Parses α} {spells spells' : List Token → α → Prop}
    (recognizes : Recognizes parse spells)
    (same : ∀ tokens a, spells tokens a ↔ spells' tokens a) : Recognizes parse spells' := by
  intro parser a last
  rw [recognizes parser a last]
  exact exists_congr fun tokens => and_congr_right fun _ => same tokens a

theorem pure (a : α) : Recognizes (Pure.pure a) fun tokens b => tokens = [] ∧ b = a := by
  intro parser b last
  constructor
  · intro succeeds
    obtain ⟨accepted,done⟩ := succeeds
    cases done
    exact ⟨[],.done,rfl,rfl⟩
  · intro found
    obtain ⟨tokens,reads,rfl,rfl⟩ := found
    cases reads
    exact ⟨parser.accepted,rfl⟩

theorem bind {parse : Parses α} {next : α → Parses β} {spells : List Token → α → Prop}
    {spells' : α → List Token → β → Prop} (first : Recognizes parse spells)
    (later : ∀ a, Recognizes (next a) (spells' a)) :
    Recognizes (parse >>= next) fun tokens b =>
      ∃ start a, spells start a ∧ ∃ finish, spells' a finish b ∧ tokens = start ++ finish := by
  intro parser b last
  show (∃ accepted, EStateM.bind parse next parser = .ok b ⟨last,accepted⟩) ↔ _
  constructor
  · intro succeeds
    obtain ⟨accepted,done⟩ := succeeds
    unfold EStateM.bind at done
    split at done
    · rename_i a middle begun
      obtain ⟨start,reads,spelled⟩ := (first parser a middle.cursor).mp ⟨middle.accepted,begun⟩
      obtain ⟨finish,reads',spelled'⟩ := (later a middle b last).mp ⟨accepted,done⟩
      exact ⟨start ++ finish,Reads.append_iff.mpr ⟨middle.cursor,reads,reads'⟩,
        start,a,spelled,finish,spelled',rfl⟩
    · cases done
  · intro found
    obtain ⟨tokens,reads,start,a,spelled,finish,spelled',rfl⟩ := found
    obtain ⟨middle,reads,reads'⟩ := Reads.append_iff.mp reads
    obtain ⟨accepted,begun⟩ := (first parser a middle).mpr ⟨start,reads,spelled⟩
    obtain ⟨accepted',done⟩ := (later a ⟨middle,accepted⟩ b last).mpr ⟨finish,reads',spelled'⟩
    exact ⟨accepted',by simp [EStateM.bind,begun,done]⟩

theorem map {parse : Parses α} {spells : List Token → α → Prop}
    (recognizes : Recognizes parse spells) (f : α → β) :
    Recognizes (f <$> parse) fun tokens b => ∃ a, spells tokens a ∧ b = f a := by
  intro parser b last
  show (∃ accepted, EStateM.map f parse parser = .ok b ⟨last,accepted⟩) ↔ _
  constructor
  · intro succeeds
    obtain ⟨accepted,done⟩ := succeeds
    unfold EStateM.map at done
    split at done
    · rename_i a after begun
      cases done
      obtain ⟨tokens,reads,spelled⟩ := (recognizes parser a last).mp ⟨accepted,begun⟩
      exact ⟨tokens,reads,a,spelled,rfl⟩
    · cases done
  · intro found
    obtain ⟨tokens,reads,a,spelled,rfl⟩ := found
    obtain ⟨accepted,begun⟩ := (recognizes parser a last).mpr ⟨tokens,reads,spelled⟩
    exact ⟨accepted,by simp [EStateM.map,begun]⟩

theorem expect {kinds : List TokenKind} (noEnd : .eof ∉ kinds) :
    Recognizes (Parser.expect kinds) fun tokens a => tokens = [a] ∧ a.kind ∈ kinds := by
  intro parser a last
  constructor
  · intro succeeds
    obtain ⟨accepted,done⟩ := succeeds
    unfold Parser.expect at done
    simp only at done
    split at done
    · rename_i found
      cases done
      have more : parser.cursor.token.1.kind ≠ .eof := fun ended => noEnd (ended ▸ found)
      exact ⟨_,Reads.single_iff.mpr ⟨rfl,more⟩,rfl,found⟩
    · cases done
  · intro spells
    obtain ⟨tokens,reads,rfl,found⟩ := spells
    obtain ⟨read,more⟩ := Reads.single_iff.mp reads
    exact ⟨a :: parser.accepted,by simp [Parser.expect,read,found]⟩

theorem expect_bind {kinds : List TokenKind} {next : Token → Parses β}
    {spells : Token → List Token → β → Prop} (noEnd : .eof ∉ kinds)
    (later : ∀ token, Recognizes (next token) (spells token)) :
    Recognizes (Parser.expect kinds >>= next) fun tokens b =>
      ∃ token rest, tokens = token :: rest ∧ token.kind ∈ kinds ∧ spells token rest b := by
  refine ((expect noEnd).bind later).congr fun tokens b => ⟨?_,?_⟩
  · intro spells
    obtain ⟨_,token,⟨rfl,found⟩,rest,spelled,rfl⟩ := spells
    exact ⟨token,rest,rfl,found,spelled⟩
  · intro spells
    obtain ⟨token,rest,rfl,found,spelled⟩ := spells
    exact ⟨_,token,⟨rfl,found⟩,rest,spelled,rfl⟩

end Recognizes

end Parser

end TapeMachine
