import Mathlib.Data.List.Nodup
import TapeMachine.Proofs.Watching

-- What a parse comes by while it is watched. A phrase takes tokens one after the other, statements
-- look at the first token of each besides, and all that they take are the tokens ahead, in order.
-- None but the last one can be the end mark, since no statement goes on behind that.
namespace TapeMachine

namespace Cursor

def remaining (cursor : Cursor) : Nat := cursor.tokens.1.length

def ahead (cursor : Cursor) : List Token := cursor.supply.take (cursor.remaining+1)

theorem Reads.remaining_eq {cursor last : Cursor} {tokens : List Token} (reads : Reads cursor tokens last) :
    cursor.remaining = tokens.length + last.remaining := by
  rw [remaining,reads.tokens_append,List.length_append,remaining]

theorem Reads.ahead_eq {cursor last : Cursor} {tokens : List Token} (reads : Reads cursor tokens last) :
    cursor.ahead = tokens ++ last.ahead := by
  have rest : cursor.supply.drop tokens.length = last.supply := by rw [supply_drop,← reads.last_eq]
  rw [ahead,reads.remaining_eq,Nat.add_assoc,Stream'.take_add,← reads.tokens_eq_take,rest,ahead]

theorem ahead_cons (cursor : Cursor) : cursor.ahead = cursor.token.1 :: cursor.supply.tail.take cursor.remaining :=
  Stream'.take_succ _ _

theorem ahead_end {cursor : Cursor} (ended : cursor.token.1.kind = .eof) : cursor.ahead = [cursor.token.1] := by
  have nothing : cursor.remaining = 0 := List.length_eq_zero_iff.mpr (Reads.done.tokens_eq ended)
  rw [ahead_cons,nothing,Stream'.take_zero]

theorem ahead_more {cursor : Cursor} (more : cursor.token.1.kind ≠ .eof) :
    cursor.ahead = cursor.token.1 :: cursor.token.2.ahead :=
  (Reads.single_iff.mpr ⟨rfl,more⟩ : Reads cursor [cursor.token.1] cursor.token.2).ahead_eq

end Cursor

namespace Parser
open Cursor

-- Where a phrase comes to while it is watched, beside where it comes to by itself. It takes tokens
-- one after the other, and only by the last of them can it fail.
inductive Takes (parser : Parser) (accesses : List Access) :
    EStateM.Result ParseError Parser α → EStateM.Result Halt Watched α → Prop where
  | whole {tokens : List Token} {a : α} {after : Parser} : Reads parser.cursor tokens after.cursor →
      Takes parser accesses (.ok a after) (.ok a ⟨after,accesses ++ tokens.map .take⟩)
  | broken {tokens : List Token} {middle : Cursor} {cause : ParseError} {after : Parser} :
      Reads parser.cursor tokens middle → after.cursor = middle.token.2 →
      Takes parser accesses (.error cause after)
        (.error (.failed cause) ⟨after,accesses ++ (tokens ++ [middle.token.1]).map .take⟩)

namespace Takes

variable {parser : Parser} {accesses : List Access}

theorem before {tokens : List Token} {after : Parser} {plain : EStateM.Result ParseError Parser α}
    {watched : EStateM.Result Halt Watched α} (reads : Reads parser.cursor tokens after.cursor)
    (takes : Takes after (accesses ++ tokens.map .take) plain watched) :
    Takes parser accesses plain watched := by
  cases takes with
  | whole later =>
    rw [List.append_assoc,← List.map_append]
    exact .whole (Reads.append_iff.mpr ⟨_,reads,later⟩)
  | broken later behind =>
    rw [List.append_assoc,← List.map_append,← List.append_assoc]
    exact .broken (Reads.append_iff.mpr ⟨_,reads,later⟩) behind

theorem pure (a : α) : Takes parser accesses ((Pure.pure a : Parses α) parser)
    ((Pure.pure a : Watches α) ⟨parser,accesses⟩) := by
  have nothing : Takes parser accesses (.ok a parser) (.ok a ⟨parser,accesses ++ [].map .take⟩) :=
    .whole .done
  rwa [List.map_nil,List.append_nil] at nothing

theorem bind {first : Parses α} {next : α → Parses β} {first' : Watches α} {next' : α → Watches β}
    (begun : Takes parser accesses (first parser) (first' ⟨parser,accesses⟩))
    (later : ∀ a after accesses, Takes after accesses (next a after) (next' a ⟨after,accesses⟩)) :
    Takes parser accesses ((first >>= next) parser) ((first' >>= next') ⟨parser,accesses⟩) := by
  rw [bind_apply,bind_apply]
  generalize first parser = plain, first' ⟨parser,accesses⟩ = watched at begun
  cases begun with
  | whole reads => exact (later _ _ _).before reads
  | broken reads behind => exact .broken reads behind

theorem expect_bind {kinds : List TokenKind} {next : Token → Parses α} {next' : Token → Watches α}
    (noEnd : .eof ∉ kinds) (later : ∀ token after accesses, Reads parser.cursor [token] after.cursor →
      Takes after accesses (next token after) (next' token ⟨after,accesses⟩)) :
    Takes parser accesses ((own.expect kinds >>= next) parser)
      ((watching.expect kinds >>= next') ⟨parser,accesses⟩) := by
  rw [bind_apply,bind_apply]
  dsimp only [own,watching]
  cases found : expect kinds parser with
  | ok token after =>
    obtain ⟨rfl,known,behind⟩ := expect_ok found
    have more : parser.cursor.token.1.kind ≠ .eof := fun ended => noEnd (ended ▸ known)
    have reads : Reads parser.cursor [parser.cursor.token.1] after.cursor :=
      Reads.single_iff.mpr ⟨by rw [behind],more⟩
    exact (later _ _ _ reads).before reads
  | error cause after =>
    obtain ⟨_,_,behind⟩ := expect_error found
    exact .broken .done behind

end Takes

namespace Takes

variable (parser : Parser) (accesses : List Access)

theorem rule : Takes parser accesses (Parser.rule parser) (Watched.rule ⟨parser,accesses⟩) :=
  .expect_bind (by decide) fun _ _ _ _ => .expect_bind (by decide) fun _ _ _ _ =>
    .expect_bind (by decide) fun _ _ _ _ => .expect_bind (by decide) fun _ _ _ _ =>
    .expect_bind (by decide) fun _ _ _ _ => .expect_bind (by decide) fun _ _ _ _ => .pure _

theorem symbols {expected : List TokenKind} (noEnd : .eof ∉ expected) {rounds : Nat}
    (enough : parser.cursor.remaining < rounds) : Takes parser accesses
      (Parser.symbols expected parser) (Watched.symbols expected rounds ⟨parser,accesses⟩) := by
  induction rounds generalizing parser accesses with
  | zero => cases enough
  | succ rounds ih =>
    rw [symbols_eq,Watched.symbols]
    refine .expect_bind noEnd fun token after accesses reads => ?_
    have left := reads.remaining_eq
    rw [List.length_singleton] at left
    by_cases symbol : token.kind = .symbol
    · rw [if_pos symbol,if_pos symbol]
      exact .bind (ih after accesses (by omega)) fun _ _ _ => .pure _
    · rw [if_neg symbol,if_neg symbol]
      exact .pure _

theorem run {rounds : Nat} (enough : parser.cursor.remaining < rounds) :
    Takes parser accesses (Parser.run parser) (Watched.run rounds ⟨parser,accesses⟩) := by
  refine .expect_bind (by decide) fun _ middle _ first => .expect_bind (by decide) fun _ _ _ second => ?_
  have left := first.remaining_eq
  have left' := second.remaining_eq
  refine .bind (.symbols _ _ (by decide) (by omega)) fun _ _ _ => ?_
  exact .expect_bind (by decide) fun _ _ _ _ => .expect_bind (by decide) fun _ _ _ _ => .pure _

theorem haltStates {rounds : Nat} (enough : parser.cursor.remaining < rounds) :
    Takes parser accesses (Parser.haltStates parser) (Watched.haltStates rounds ⟨parser,accesses⟩) := by
  refine .expect_bind (by decide) fun _ _ _ first => ?_
  have left := first.remaining_eq
  exact .symbols _ _ (by decide) (by omega)

end Takes

inductive Proceeds (parser : Parser) (accesses : List Access) :
    EStateM.Result ParseError Parser (Option Statement) →
      EStateM.Result Halt Watched (Option Statement) → Prop where
  | ended : Proceeds parser accesses (.ok none parser)
      (.ok none ⟨parser,accesses ++ [.look parser.peek]⟩)
  | refused {cause : ParseError} : Proceeds parser accesses (.error cause parser)
      (.error (.failed cause) ⟨parser,accesses ++ [.look parser.peek]⟩)
  | whole {tokens : List Token} {statement : Statement} {after : Parser} :
      Reads parser.cursor tokens after.cursor → tokens ≠ [] →
      Proceeds parser accesses (.ok (some statement) after)
        (.ok (some statement) ⟨after,accesses ++ [.look parser.peek] ++ tokens.map .take⟩)
  | broken {tokens : List Token} {middle : Cursor} {cause : ParseError} {after : Parser} :
      parser.peek.kind ≠ .eof → Reads parser.cursor tokens middle → after.cursor = middle.token.2 →
      Proceeds parser accesses (.error cause after) (.error (.failed cause)
        ⟨after,accesses ++ [.look parser.peek] ++ (tokens ++ [middle.token.1]).map .take⟩)

theorem Takes.proceeds {parser : Parser} {accesses : List Access} {parse : Parses α} {watched : Watches α}
    (takes : Takes parser (accesses ++ [.look parser.peek]) (parse parser)
      (watched ⟨parser,accesses ++ [.look parser.peek]⟩))
    (more : parser.peek.kind ≠ .eof) (shorter : (finish parse parser).left < parser.left)
    (wrap : α → Statement) : Proceeds parser accesses
      ((parse >>= fun a => Pure.pure (some (wrap a))) parser)
      ((watched >>= fun a => Pure.pure (some (wrap a))) ⟨parser,accesses ++ [.look parser.peek]⟩) := by
  rw [bind_apply,bind_apply]
  unfold finish at shorter
  generalize parse parser = plain, watched _ = observed at takes shorter
  cases takes with
  | @whole tokens _ after reads =>
    refine .whole reads ?_
    rintro rfl
    have stays : after.cursor = parser.cursor := reads.last_eq
    simp [left,stays] at shorter
  | broken reads behind => exact .broken more reads behind

theorem statement?_proceeds (parser : Parser) (accesses : List Access) {rounds : Nat}
    (enough : parser.cursor.remaining < rounds) : Proceeds parser accesses (statement? parser)
      (Watched.statement? rounds ⟨parser,accesses⟩) := by
  have looked : own.look parser = .ok parser.peek parser := rfl
  have looked' : watching.look ⟨parser,accesses⟩ =
      .ok parser.peek ⟨parser,accesses ++ [.look parser.peek]⟩ := rfl
  rw [statement?_eq,Watched.statement?]
  unfold statementBy
  rw [bind_apply,bind_apply,looked,looked']
  dsimp only
  cases kind : parser.peek.kind with
  | eof => exact .ended
  | symbol =>
    have more : parser.peek.kind ≠ .eof := by simp [kind]
    exact (Takes.rule _ _).proceeds more (rule_shorter more) .rule
  | newLine =>
    have more : parser.peek.kind ≠ .eof := by simp [kind]
    have reads : Reads parser.cursor [parser.peek] parser.skip.cursor := Reads.single_iff.mpr ⟨rfl,more⟩
    exact .whole reads (List.cons_ne_nil _ _)
  | command =>
    have more : parser.peek.kind ≠ .eof := by simp [kind]
    dsimp only
    by_cases run : parser.peek.text = "#run"
    · rw [if_pos run,if_pos run]
      exact (Takes.run _ _ enough).proceeds more (run_shorter more) .run
    · rw [if_neg run,if_neg run]
      by_cases halt : parser.peek.text = "#halt"
      · rw [if_pos halt,if_pos halt]
        exact (Takes.haltStates _ _ enough).proceeds more (haltStates_shorter more) .halt
      · rw [if_neg halt,if_neg halt]
        exact .refused
  | _ => exact .refused

structure Frugal (cursor : Cursor) (accesses : List Access) : Prop where
  taken : accesses.filterMap Access.taken? <+: cursor.ahead
  looked : (accesses.filterMap Access.looked?).Sublist cursor.ahead
  ended : accesses.countP (fun access => access.token.kind = .eof) ≤ 1
  count : accesses.length ≤ 2*cursor.remaining+1

theorem filterMap_taken (tokens : List Token) : (tokens.map .take).filterMap Access.taken? = tokens := by
  simp [List.filterMap_map,Function.comp_def,Access.taken?]

theorem filterMap_looked (tokens : List Token) : (tokens.map .take).filterMap Access.looked? = [] := by
  simp [List.filterMap_map,Function.comp_def,Access.looked?]

theorem taken_cons (token : Token) (accesses : List Access) :
    (.look token :: accesses).filterMap Access.taken? = accesses.filterMap Access.taken? := rfl

theorem looked_cons (token : Token) (accesses : List Access) :
    (.look token :: accesses).filterMap Access.looked? = token :: accesses.filterMap Access.looked? := rfl

theorem countP_taken {cursor last : Cursor} {tokens : List Token} (reads : Reads cursor tokens last) :
    (tokens.map Access.take).countP (fun access => access.token.kind = .eof) = 0 := by
  rw [List.countP_map,List.countP_eq_zero]
  exact fun token member ended => reads.no_end token member (of_decide_eq_true ended)

theorem countP_looked {cursor : Cursor} (more : cursor.token.1.kind ≠ .eof) (accesses : List Access) :
    (Access.look cursor.token.1 :: accesses).countP (fun access => access.token.kind = .eof) =
      accesses.countP (fun access => access.token.kind = .eof) :=
  List.countP_cons_of_neg fun ended => more (of_decide_eq_true ended)

namespace Frugal

variable {cursor last middle : Cursor} {tokens : List Token} {accesses : List Access}

theorem look (cursor : Cursor) : Frugal cursor [.look cursor.token.1] where
  taken := List.nil_prefix
  looked := by
    rw [ahead_cons]
    exact (List.nil_sublist _).cons_cons _
  ended := List.countP_le_length
  count := Nat.le_add_left ..

theorem whole (reads : Reads cursor tokens last) (some : tokens ≠ []) (rest : Frugal last accesses) :
    Frugal cursor (.look cursor.token.1 :: (tokens.map .take ++ accesses)) := by
  obtain ⟨token,others,rfl⟩ := List.exists_cons_of_ne_nil some
  have first := reads.head_eq
  have more : cursor.token.1.kind ≠ .eof := first ▸ reads.no_end token (by simp)
  refine ⟨?_,?_,?_,?_⟩
  · rw [taken_cons,List.filterMap_append,filterMap_taken,reads.ahead_eq]
    exact (List.prefix_append_right_inj _).mpr rest.taken
  · rw [looked_cons,List.filterMap_append,filterMap_looked,reads.ahead_eq,first]
    exact (rest.looked.trans (List.sublist_append_right ..)).cons_cons _
  · rw [countP_looked more,List.countP_append,countP_taken reads,Nat.zero_add]
    exact rest.ended
  · have left := reads.remaining_eq
    have few := rest.count
    simp only [List.length_cons,List.length_append,List.length_map] at left ⊢
    omega

theorem broken (more : cursor.token.1.kind ≠ .eof) (reads : Reads cursor tokens middle) :
    Frugal cursor (.look cursor.token.1 :: (tokens ++ [middle.token.1]).map .take) := by
  refine ⟨?_,?_,?_,?_⟩
  · rw [taken_cons,filterMap_taken,reads.ahead_eq,ahead_cons]
    exact (List.prefix_append_right_inj _).mpr (List.prefix_append [_] _)
  · rw [looked_cons,filterMap_looked]
    exact (look cursor).looked
  · rw [countP_looked more,List.map_append,List.countP_append,countP_taken reads,Nat.zero_add]
    exact List.countP_le_length
  · have some : 1 ≤ cursor.remaining := by
      rw [(Reads.single_iff.mpr ⟨rfl,more⟩ : Reads cursor [cursor.token.1] cursor.token.2).remaining_eq]
      exact Nat.le_add_right ..
    have left := reads.remaining_eq
    simp only [List.length_cons,List.length_append,List.length_map,List.length_nil]
    omega

end Frugal

theorem count_access {pick : Access → Option Token} {access : Token → Access}
    (picks : ∀ given token, pick given = some token ↔ given = access token) (token : Token)
    (accesses : List Access) : accesses.count (access token) = (accesses.filterMap pick).count token := by
  rw [List.count_filterMap,List.count]
  exact List.countP_congr fun given _ => by simp [picks]

theorem looked?_eq_some (access : Access) (token : Token) : access.looked? = some token ↔ access = .look token := by
  cases access <;> simp [Access.looked?]

theorem taken?_eq_some (access : Access) (token : Token) : access.taken? = some token ↔ access = .take token := by
  cases access <;> simp [Access.taken?]

theorem Frugal.once {cursor : Cursor} {accesses : List Access} (frugal : Frugal cursor accesses)
    (distinct : cursor.ahead.Nodup) (token : Token) :
    accesses.count (.look token) ≤ 1 ∧ accesses.count (.take token) ≤ 1 := by
  rw [count_access looked?_eq_some,count_access taken?_eq_some]
  exact ⟨List.nodup_iff_count_le_one.mp (frugal.looked.nodup distinct) token,
    List.nodup_iff_count_le_one.mp (frugal.taken.sublist.nodup distinct) token⟩

theorem Takes.told {parser : Parser} {accesses : List Access} {plain : EStateM.Result ParseError Parser α}
    {watched : EStateM.Result Halt Watched α} (takes : Takes parser accesses plain watched) :
    ∃ tokens, tokens <+: parser.cursor.ahead ∧
      watched = Watched.told (accesses ++ tokens.map .take) plain := by
  cases takes with
  | @whole tokens _ _ reads =>
    refine ⟨tokens,?_,rfl⟩
    rw [reads.ahead_eq]
    exact List.prefix_append ..
  | @broken tokens middle _ _ reads =>
    refine ⟨tokens ++ [middle.token.1],?_,rfl⟩
    rw [reads.ahead_eq,ahead_cons]
    exact (List.prefix_append_right_inj _).mpr (List.prefix_append [_] _)

theorem told_bind_pure {parse : Parses α} {watched : Watches α} {parser : Parser} {state : Watched}
    {accesses : List Access} (told : watched state = Watched.told accesses (parse parser)) (f : α → β) :
    (watched >>= fun a => Pure.pure (f a)) state =
      Watched.told accesses ((parse >>= fun a => Pure.pure (f a)) parser) := by
  rw [bind_apply,bind_apply,told]
  cases parse parser <;> rfl

-- Each round reads a statement, so the rounds last as long as there are tokens.
theorem statements_told (parser : Parser) (accesses : List Access) {rounds : Nat}
    (enough : parser.cursor.remaining < rounds) : ∃ added, Frugal parser.cursor added ∧
      Watched.statements rounds ⟨parser,accesses⟩ = Watched.told (accesses ++ added) (statements parser) := by
  induction rounds generalizing parser accesses with
  | zero => cases enough
  | succ rounds ih =>
    have proceeds := statement?_proceeds parser accesses enough
    rw [statements_eq,Watched.statements]
    unfold statementsBy
    rw [bind_apply,bind_apply]
    generalize statement? parser = plain, Watched.statement? _ _ = watched at proceeds
    cases proceeds with
    | ended => exact ⟨_,.look _,rfl⟩
    | refused => exact ⟨_,.look _,rfl⟩
    | @whole tokens statement after reads some =>
      have left := reads.remaining_eq
      have taken := List.length_pos_iff.mpr some
      obtain ⟨added,frugal,later⟩ := ih after (accesses ++ [.look parser.peek] ++ tokens.map .take) (by omega)
      have all : accesses ++ [.look parser.peek] ++ tokens.map .take ++ added =
          accesses ++ .look parser.peek :: (tokens.map .take ++ added) := by simp
      rw [all] at later
      exact ⟨_,.whole reads some frugal,told_bind_pure later (statement :: ·)⟩
    | broken more reads =>
      rw [List.append_assoc]
      exact ⟨_,.broken more reads,rfl⟩

theorem program_told (parser : Parser) (accesses : List Access) {rounds : Nat}
    (enough : parser.cursor.remaining < rounds) : ∃ added, Frugal parser.cursor added ∧
      Watched.program rounds ⟨parser,accesses⟩ = Watched.told (accesses ++ added) (program parser) := by
  obtain ⟨added,frugal,watched⟩ := statements_told parser accesses enough
  exact ⟨added,frugal,told_bind_pure watched _⟩

end Parser

end TapeMachine
