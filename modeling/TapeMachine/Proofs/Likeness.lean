import TapeMachine.Proofs.Stopping

-- What parsing minds of its tokens. Where two supplies are alike in that for as far as one of
-- them is read, the other one is read in the same way.
namespace TapeMachine

-- The kind, and the text where it can be a symbol or a command.
def Token.gist (token : Token) : TokenKind × String :=
  (token.kind,if token.kind = .unclosed then "" else token.text)

def Stop.reach : Stop → Nat
  | .ended => 0
  | .fault _ right _ => right

theorem Token.kind_of_gist {token other : Token} (same : token.gist = other.gist) :
    token.kind = other.kind := congrArg Prod.fst same

theorem Token.text_of_gist {token other : Token} (same : token.gist = other.gist)
    (closed : token.kind ≠ .unclosed) : token.text = other.text := by
  have kind := kind_of_gist same
  have text := congrArg Prod.snd same
  simp only [gist] at text
  rwa [if_neg closed,if_neg (kind ▸ closed)] at text

theorem texts_of_gists {tokens others : List Token} (symbols : ∀ token ∈ tokens, token.kind = .symbol)
    (same : tokens.map Token.gist = others.map Token.gist) :
    (∀ other ∈ others, other.kind = .symbol) ∧ tokens.map Token.text = others.map Token.text := by
  induction tokens generalizing others with
  | nil =>
    obtain rfl := List.map_eq_nil_iff.mp same.symm
    exact ⟨symbols,rfl⟩
  | cons token tokens ih =>
    obtain ⟨other,rest,rfl,first,later⟩ := List.map_eq_cons_iff.mp same.symm
    obtain ⟨here,more⟩ := List.forall_mem_cons.mp symbols
    obtain ⟨kinds,texts⟩ := ih more later.symm
    refine ⟨List.forall_mem_cons.mpr ⟨(Token.kind_of_gist first).trans here,kinds⟩,?_⟩
    rw [List.map_cons,List.map_cons,texts,Token.text_of_gist first.symm (by simp [here])]

theorem slotsFrom_of_gist {token other : Token} (same : token.gist = other.gist) :
    slotsFrom token = slotsFrom other := by
  unfold slotsFrom
  rw [← Token.kind_of_gist same]
  split
  case h_3 command => rw [Token.text_of_gist same (by simp [command])]
  all_goals rfl

theorem Statement.Spelled.congr {tokens others : List Token} {statement : Statement}
    (spelled : statement.Spelled tokens) (same : others.map Token.gist = tokens.map Token.gist) :
    statement.Spelled others := by
  have kinds {token other : Token} {kind : TokenKind} (like : other.gist = token.gist)
      (known : token.kind = kind) : other.kind = kind := (Token.kind_of_gist like).trans known
  have texts {token other : Token} (like : other.gist = token.gist)
      (symbol : token.kind = .symbol) : token.text = other.text :=
    Token.text_of_gist like.symm (by simp [symbol])
  cases spelled with
  | blank kind =>
    simp only [List.map_cons,List.map_nil,List.map_eq_cons_iff,List.map_eq_nil_iff] at same
    obtain ⟨lineEnd,_,rfl,like,rfl⟩ := same
    exact .blank (kinds like kind)
  | rule first second third arrow fifth ends =>
    simp only [List.map_cons,List.map_nil,List.map_eq_cons_iff,List.map_eq_nil_iff] at same
    obtain ⟨state,_,rfl,one,read,_,rfl,two,write,_,rfl,three,mark,_,rfl,four,next,_,rfl,five,
      lineEnd,_,rfl,six,rfl⟩ := same
    rw [texts one first,texts two second,texts three third,texts five fifth]
    exact .rule (kinds one first) (kinds two second) (kinds three third)
      (Token.kind_of_gist four ▸ arrow) (kinds five fifth) (kinds six ends)
  | run first word second cellSymbols third fourth ends =>
    simp only [List.map_append,List.map_cons,List.map_nil,List.map_eq_append_iff,List.map_eq_cons_iff,
      List.map_eq_nil_iff] at same
    obtain ⟨_,_,rfl,⟨_,cells,rfl,⟨command,_,rfl,one,bra,_,rfl,two,rfl⟩,inside⟩,
      ket,_,rfl,three,state,_,rfl,four,lineEnd,_,rfl,five,rfl⟩ := same
    obtain ⟨symbols,cellTexts⟩ := texts_of_gists cellSymbols inside.symm
    have text : command.text = "#run" := by
      rw [Token.text_of_gist one (by simp [kinds one first]),word]
    rw [cellTexts,texts four fourth]
    exact .run (kinds one first) text (kinds two second) symbols (kinds three third)
      (kinds four fourth) (kinds five ends)
  | halt first word stateSymbols ends =>
    simp only [List.map_append,List.map_cons,List.map_nil,List.map_eq_append_iff,List.map_eq_cons_iff,
      List.map_eq_nil_iff] at same
    obtain ⟨_,_,rfl,⟨_,states,rfl,⟨command,_,rfl,one,rfl⟩,inside⟩,lineEnd,_,rfl,two,rfl⟩ := same
    obtain ⟨symbols,stateTexts⟩ := texts_of_gists stateSymbols inside.symm
    have text : command.text = "#halt" := by
      rw [Token.text_of_gist one (by simp [kinds one first]),word]
    rw [stateTexts]
    exact .halt (kinds one first) text symbols (kinds two ends)

theorem Sentence.congr {tokens others : List Token} {statements : List Statement}
    (sentence : Sentence tokens statements) (same : others.map Token.gist = tokens.map Token.gist) :
    Sentence others statements := by
  induction sentence generalizing others with
  | done =>
    obtain rfl := List.map_eq_nil_iff.mp same
    exact .done
  | more spelled _ ih =>
    rw [List.map_append] at same
    obtain ⟨first,rest,rfl,here,later⟩ := List.map_eq_append_iff.mp same
    exact .more (spelled.congr here) (ih later)

theorem Sentence.append {first rest : List Token} {statements later : List Statement}
    (begun : Sentence first statements) (finished : Sentence rest later) :
    Sentence (first ++ rest) (statements ++ later) := by
  induction begun with
  | done => exact finished
  | more spelled _ ih =>
    rw [List.append_assoc]
    exact .more spelled ih

section

variable {supply other : Supply} {count : Nat} {statements : List Statement} {stop : Stop}

theorem take_map_congr {f : Token → α}
    (same : ∀ index < count, f (other.get index) = f (supply.get index)) :
    (other.take count).map f = (supply.take count).map f := by
  induction count with
  | zero => rfl
  | succ count ih =>
    rw [Stream'.take_succ',Stream'.take_succ',List.map_append,List.map_append,
      ih fun index less => same index (Nat.lt_succ_of_lt less)]
    simp [same count (Nat.lt_succ_self _)]

theorem Stops.congr (stops : Stops supply stop)
    (same : ∀ index ≤ stop.reach, (other.get index).gist = (supply.get index).gist) :
    Stops other stop := by
  have head : other.head.gist = supply.head.gist := same 0 (Nat.zero_le _)
  have kind := Token.kind_of_gist head
  cases stops with
  | ended last => exact .ended (kind.trans last)
  | opening unknown => exact .opening (kind ▸ unknown)
  | command named noRun noHalt =>
    have text := Token.text_of_gist head (by rw [kind,named]; decide)
    exact .command (kind.trans named) (text ▸ noRun) (text ▸ noHalt)
  | @inside slots right wanted begun broken =>
    have kinds : ∀ index ≤ right, (other.get index).kind = (supply.get index).kind :=
      fun index within => Token.kind_of_gist (same index within)
    cases broken with
    | broken fills unwanted =>
      have taken := take_map_congr fun index less => (kinds index (Nat.le_of_lt less)).symm
      rw [← kinds right (Nat.le_refl _)] at unwanted
      exact .inside ((slotsFrom_of_gist head).trans begun) (.broken (fills.congr taken) unwanted)

theorem Reading.congr (reading : Reading supply count statements stop)
    (same : ∀ index ≤ count+stop.reach, (other.get index).gist = (supply.get index).gist) :
    Reading other count statements stop := by
  obtain ⟨sentence,stops⟩ := reading
  refine ⟨sentence.congr ?_,stops.congr ?_⟩
  · exact take_map_congr fun index less => same index (by omega)
  · intro index within
    rw [Stream'.get_drop,Stream'.get_drop]
    exact same _ (by omega)

end

end TapeMachine
