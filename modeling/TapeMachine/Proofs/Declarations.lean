import Mathlib.Data.List.Nodup
import TapeMachine.Proofs.Assembled

-- The data part of a listing: one line for every text, in the order in which the texts are
-- declared first. The names of the texts are told apart by their length and their first letter,
-- so no two texts share a label as long as each is a fixed text or a single byte.
namespace TapeMachine.Assembly

def textName (text : String) : String := ((fixedTexts.lookup text).getD none).getD (symbolName text)

def fixedNames : List String := fixedTexts.filterMap Prod.snd

theorem textName_fixed {text : String} (fixed : text ∈ fixedTexts.map Prod.fst) :
    textName text ∈ fixedNames := by
  have all : ∀ text ∈ fixedTexts.map Prod.fst, textName text ∈ fixedNames := by decide
  exact all text fixed

theorem textName_symbol {text : String} (other : text ∉ fixedTexts.map Prod.fst) :
    textName text = symbolName text := by
  have missing : fixedTexts.lookup text = none := by
    rw [List.lookup_eq_none_iff]
    intro entry member
    have unlike : text ≠ entry.1 := by
      intro same
      exact other (same ▸ List.mem_map_of_mem member)
    simpa using unlike
  rw [textName,missing]
  rfl

theorem narrow_singleton {symbol : String} (narrow : (textBytes symbol).length = 1) :
    ∃ c : Char, symbol = String.singleton c ∧ c.toNat < 128 := by
  obtain ⟨byte,_,code⟩ := byte_of_narrow narrow
  unfold codePoint at code
  split at code
  · rename_i c single
    have size : c.utf8Size = 1 := by simpa [textBytes,Utf8.encode,single] using narrow
    have small : c.val ≤ 127 := Char.utf8Size_eq_one_iff.mp size
    refine ⟨c,?_,Nat.lt_succ_of_le small⟩
    rw [← String.toList_inj,single,String.toList_singleton]
  · cases code

theorem symbolName_singleton {c : Char} (small : c.toNat < 128) :
    c.isAlphanum = true ∧ symbolName (String.singleton c) = String.singleton c ∨
      symbolName (String.singleton c) =
        String.ofList ['x',Nat.digitChar (c.toNat/16),Nat.digitChar (c.toNat%16)] := by
  cases plain : c.isAlphanum with
  | true => exact .inl ⟨rfl,by simp [symbolName,plain]⟩
  | false =>
    have size : c.utf8Size = 1 := Char.utf8Size_eq_one_iff.mpr (Nat.le_of_lt_succ small)
    have fits : c.toUInt8.toNat = c.toNat := by
      rw [Char.toUInt8,UInt32.toNat_toUInt8]
      exact Nat.mod_eq_of_lt (Nat.lt_trans small (by decide))
    have digit : c.toNat/16%16 = c.toNat/16 := Nat.mod_eq_of_lt (by omega)
    right
    simp [symbolName,plain,textBytes,Utf8.encode,String.utf8EncodeChar_eq_singleton size,fits,
      Text.hex,List.range_succ,digit]

theorem fixedNames_apart {name : String} (fixed : name ∈ fixedNames) :
    name.length ≠ 1 ∧ name.toList.head? ≠ some 'x' := by
  have all : ∀ name ∈ fixedNames, name.length ≠ 1 ∧ name.toList.head? ≠ some 'x' := by decide
  exact all name fixed

theorem symbolName_not_fixed {c : Char} (small : c.toNat < 128) :
    symbolName (String.singleton c) ∉ fixedNames := by
  intro fixed
  obtain ⟨long,start⟩ := fixedNames_apart fixed
  rcases symbolName_singleton small with ⟨_,itself⟩ | digits
  · rw [itself] at long
    exact long (by simp)
  · rw [digits] at start
    exact start (by simp)

theorem digitChar_inj {m n : Nat} (left : m < 16) (right : n < 16)
    (same : Nat.digitChar m = Nat.digitChar n) : m = n := by
  have all : ∀ m < 16, ∀ n < 16, Nat.digitChar m = Nat.digitChar n → m = n := by decide
  exact all m left n right same

theorem symbolName_inj {c d : Char} (left : c.toNat < 128) (right : d.toNat < 128)
    (same : symbolName (String.singleton c) = symbolName (String.singleton d)) : c = d := by
  -- A letter is shorter than an x with two digits, so only names of one kind can be the same.
  rcases symbolName_singleton left with ⟨_,itself⟩ | digits <;>
    rcases symbolName_singleton right with ⟨_,itself'⟩ | digits'
  · rw [itself,itself'] at same
    simpa using same
  · rw [itself,digits'] at same
    simpa using congrArg String.length same
  · rw [digits,itself'] at same
    simpa using congrArg String.length same
  · rw [digits,digits',String.ofList_inj] at same
    simp only [List.cons.injEq,and_true,true_and] at same
    have high := digitChar_inj (by omega) (by omega) same.1
    have low := digitChar_inj (by omega) (by omega) same.2
    refine Char.toNat_inj.mp ?_
    omega

def Declarable (text : String) : Prop :=
  text ∈ fixedTexts.map Prod.fst ∨ (textBytes text).length = 1

theorem textName_inj {text other : String} (declarable : Declarable text)
    (declarable' : Declarable other) (same : textName text = textName other) : text = other := by
  have fixed_inj : ∀ text ∈ fixedTexts.map Prod.fst, ∀ other ∈ fixedTexts.map Prod.fst,
      textName text = textName other → text = other := by decide
  by_cases fixed : text ∈ fixedTexts.map Prod.fst <;>
    by_cases fixed' : other ∈ fixedTexts.map Prod.fst
  · exact fixed_inj text fixed other fixed' same
  · obtain ⟨c,rfl,small⟩ := narrow_singleton (declarable'.resolve_left fixed')
    rw [textName_symbol fixed'] at same
    exact absurd (same ▸ textName_fixed fixed) (symbolName_not_fixed small)
  · obtain ⟨c,rfl,small⟩ := narrow_singleton (declarable.resolve_left fixed)
    rw [textName_symbol fixed] at same
    exact absurd (same.symm ▸ textName_fixed fixed') (symbolName_not_fixed small)
  · obtain ⟨c,rfl,small⟩ := narrow_singleton (declarable.resolve_left fixed)
    obtain ⟨d,rfl,small'⟩ := narrow_singleton (declarable'.resolve_left fixed')
    rw [textName_symbol fixed,textName_symbol fixed'] at same
    rw [symbolName_inj small small' same]

theorem eraseDups_concat (texts : List String) (text : String) :
    (texts ++ [text]).eraseDups =
      if text ∈ texts then texts.eraseDups else texts.eraseDups ++ [text] := by
  rw [List.eraseDups_append]
  split
  · rename_i known
    simp [List.removeAll,known]
  · rename_i fresh
    simp [List.removeAll,fresh,List.eraseDups_cons]

theorem eraseDups_nodup (texts : List String) : texts.eraseDups.Nodup := by
  induction texts using List.reverseRecOn with
  | nil => simp
  | append_singleton texts text ih =>
    rw [eraseDups_concat]
    split
    · exact ih
    · rename_i fresh
      rw [List.nodup_append]
      refine ⟨ih,List.nodup_singleton text,?_⟩
      intro other member last single same
      rw [same,List.mem_singleton.mp single,List.mem_eraseDups] at member
      exact fresh member

theorem lookup_named (texts : List String) (text : String) :
    (texts.map fun text => (text,textName text)).lookup text =
      if text ∈ texts then some (textName text) else none := by
  induction texts with
  | nil => rfl
  | cons first texts ih =>
    rw [List.map_cons,List.lookup_cons,ih]
    by_cases same : text = first
    · simp [same]
    · simp [same,beq_eq_false_iff_ne.mpr same]

def dataLine (text : String) : Line := .data (dataLabel (textName text)) (textBytes text)

structure Declared (texts : List String) (listing : Listing) : Prop where
  symbols : listing.symbols = texts.eraseDups.map fun text => (text,textName text)
  lines : listing.lines = headerLines ++ texts.eraseDups.map dataLine

theorem Declared.declare {texts : List String} {listing : Listing} (declared : Declared texts listing)
    {text : String} {name : Option String}
    (named : text ∉ texts → (name.filter (· ≠ "")).getD (symbolName text) = textName text) :
    Declared (texts ++ [text]) (listing.declare text name).2 := by
  obtain ⟨symbols,lines⟩ := declared
  have looked : listing.symbols.lookup text = if text ∈ texts then some (textName text) else none := by
    rw [symbols,lookup_named]
    simp only [List.mem_eraseDups]
  unfold Listing.declare
  by_cases known : text ∈ texts
  · rw [looked,if_pos known]
    exact ⟨by rw [eraseDups_concat,if_pos known,symbols],by rw [eraseDups_concat,if_pos known,lines]⟩
  · rw [looked,if_neg known]
    refine ⟨?_,?_⟩
    · rw [eraseDups_concat,if_neg known,List.map_append,← symbols]
      simp only [named known]
      rfl
    · rw [eraseDups_concat,if_neg known,List.map_append,← List.append_assoc,← lines]
      simp only [Listing.lines_emit,named known]
      rfl

theorem Declared.declareAll {more : List (String × Option String)} {texts : List String}
    {listing : Listing} (declared : Declared texts listing)
    (named : ∀ entry ∈ more, entry.1 ∉ texts →
      (entry.2.filter (· ≠ "")).getD (symbolName entry.1) = textName entry.1) :
    Declared (texts ++ more.map Prod.fst) (listing.declareAll more) := by
  induction more generalizing texts listing with
  | nil => simpa [Listing.declareAll] using declared
  | cons entry more ih =>
    have next := declared.declare (named entry List.mem_cons_self)
    have all := ih next fun later member fresh =>
      named later (List.mem_cons_of_mem _ member) fun known => fresh (List.mem_append_left _ known)
    rw [List.map_cons,List.append_cons]
    exact all

def declarations (program : Program) (run : Run) : List String :=
  fixedTexts.map Prod.fst ++
    (program.rules.flatMap (fun rule => [rule.state,rule.next,rule.read,rule.write]) ++
      run.state :: run.tape)

theorem data_declared (program : Program) (run : Run) :
    Declared (declarations program run) (Listing.data program run) := by
  have blank : Declared [] (Listing.blank.emit headerLines) := ⟨rfl,rfl⟩
  have fixed : Declared (fixedTexts.map Prod.fst) fixedListing := by
    have named : ∀ entry ∈ fixedTexts,
        (entry.2.filter (· ≠ "")).getD (symbolName entry.1) = textName entry.1 := by decide
    exact blank.declareAll fun entry member _ => named entry member
  have texts : (declaredTexts program run).map Prod.fst =
      program.rules.flatMap (fun rule => [rule.state,rule.next,rule.read,rule.write]) ++
        run.state :: run.tape := by
    rw [declaredTexts,List.map_map]
    exact List.map_id _
  rw [declarations,← texts]
  refine fixed.declareAll ?_
  intro entry member fresh
  obtain ⟨text,_,rfl⟩ := List.mem_map.mp member
  exact (textName_symbol fresh).symm

theorem mem_declarations {program : Program} {run : Run} (single : program.runs = [run])
    (text : String) : text ∈ (declarations program run).eraseDups ↔
      text ∈ fixedTexts.map Prod.fst ∨ text ∈ program.symbols := by
  have fields (rule : Rule) : text ∈ [rule.state,rule.next,rule.read,rule.write] ↔
      text ∈ [rule.state,rule.read,rule.write,rule.next] := by
    simp only [List.mem_cons,List.not_mem_nil,or_false]
    tauto
  simp only [declarations,Program.symbols,Program.occurrences,single,List.mem_eraseDups,
    List.mem_append,List.mem_flatMap,fields,List.mem_singleton,exists_eq_left]

theorem declarable_of_mem {sizes : Sizes} {program : Program} {run : Run}
    (accepted : Accepted sizes program run) {text : String}
    (member : text ∈ (declarations program run).eraseDups) : Declarable text := by
  rcases (mem_declarations accepted.single text).mp member with fixed | symbol
  · exact .inl fixed
  · exact .inr (accepted.narrow text (List.mem_eraseDups.mp symbol))

theorem dataLabels_nodup {sizes : Sizes} {program : Program} {run : Run}
    (accepted : Accepted sizes program run) :
    ((declarations program run).eraseDups.map fun text => dataLabel (textName text)).Nodup := by
  refine List.Nodup.map_on ?_ (eraseDups_nodup _)
  intro text member other member' same
  refine textName_inj (declarable_of_mem accepted member) (declarable_of_mem accepted member') ?_
  simpa [dataLabel] using same

end TapeMachine.Assembly
