import TapeMachine.Proofs.Capitals
import TapeMachine.Proofs.Numerals

-- Which values name a log level: texts that spell its name. Whatever else a value can be, its text
-- has a character in it that is no letter, or is another word.
namespace TapeMachine

def levelNames : List String := ["DEBUG","INFO","WARNING","ERROR","CRITICAL"]

theorem Log.Level.mem_levelNames_iff {name : String} :
    name ∈ levelNames ↔ ∃ level : Log.Level, level.name = name := by
  constructor
  · intro member
    have all : ∀ name ∈ levelNames, ∃ level ∈ Log.Level.all, level.name = name := by decide
    exact (all name member).imp fun _ named => named.2
  · rintro ⟨level,rfl⟩
    cases level <;> decide

theorem Log.Level.name_mem (level : Log.Level) : level.name ∈ levelNames :=
  mem_levelNames_iff.mpr ⟨level,rfl⟩

instance (c letter : Char) : Decidable (Cased c letter) := inferInstanceAs (Decidable (_ ∨ _))

instance (text name : String) : Decidable (Spells text name) :=
  inferInstanceAs (Decidable (List.Forall₂ ..))

theorem isLetter_of_cased {text word : List Char} (spelled : List.Forall₂ Cased text word)
    (letters : ∀ letter ∈ word, letter.isAlpha = true ∧ letter.toLower.isAlpha = true) :
    ∀ c ∈ text, c.isAlpha = true ∨ c = 'ı' := by
  induction spelled with
  | nil => simp
  | cons first _ ih =>
    obtain ⟨capital,small⟩ := letters _ List.mem_cons_self
    rw [List.forall_mem_cons]
    refine ⟨?_,ih fun letter member => letters letter (List.mem_cons_of_mem _ member)⟩
    rcases first with rfl | rfl | ⟨dotless,_⟩
    · exact .inl capital
    · exact .inl small
    · exact .inr dotless

-- No letter, in a text that is no name therefore.
def Strange (c : Char) : Prop := c.isAlpha = false ∧ c ≠ 'ı'

instance (c : Char) : Decidable (Strange c) := inferInstanceAs (Decidable (_ ∧ _))

theorem Strange.not_spells {c : Char} (strange : Strange c) {text : String} (member : c ∈ text.toList)
    (level : Log.Level) : ¬Spells text level.name := by
  have letters : ∀ letter ∈ level.name.toList, letter.isAlpha = true ∧ letter.toLower.isAlpha = true := by
    cases level <;> exact List.all_iff_forall_prop.mp (by decide)
  intro spelled
  rcases isLetter_of_cased spelled letters c member with letter | dotless
  · exact Bool.noConfusion (letter.symm.trans strange.1)
  · exact strange.2 dotless

theorem strange_of_isDigit {c : Char} (digit : c.isDigit = true) : Strange c := by
  obtain ⟨n,small,rfl⟩ := Text.exists_of_isDigit digit
  revert n
  decide

namespace Decimal

theorem strange_of_layOut (digits : List Char) (exponent : Int) :
    ∃ c ∈ layOut digits exponent, Strange c := by
  have point : Strange '.' := by decide
  unfold layOut
  dsimp only
  split
  · split
    · exact ⟨'.',by simp,point⟩
    · split
      · exact ⟨'.',by simp,point⟩
      · exact ⟨'.',by simp,point⟩
  · by_cases small : exponent + digits.length - 1 < 0
    · exact ⟨'-',by simp [powerText,small],by decide⟩
    · exact ⟨'+',by simp [powerText,small],by decide⟩

theorem Binary64.not_spells (value : Binary64) (level : Log.Level) : ¬Spells value.text level.name := by
  cases value with
  | nan => cases level <;> decide
  | infinite negative => cases negative <;> cases level <;> decide
  | finite negative significand exponent =>
    by_cases zero : significand = 0
    · have point : Strange '.' := by decide
      refine point.not_spells ?_ level
      cases negative <;> simp [Binary64.text,zero]
    · have shown := strange_of_layOut (neighbourhood significand exponent).shortest.significant.1
        (neighbourhood significand exponent).shortest.significant.2
      obtain ⟨c,member,strange⟩ := shown
      refine strange.not_spells ?_ level
      cases negative <;> simp [Binary64.text,zero,member]

end Decimal

namespace Yaml.Value

-- A text, or what another kind of object is shown as.
inductive Names : Value → String → Prop where
  | text {text name : String} : Spells text name → Names (.text text) name
  | rawText {text : List Char} {name : String} : Spells (String.ofList text) name →
      Names (.rawText (text.map Char.toNat)) name
  | foreign {shown name : String} : Spells shown name → Names (.foreign (.ok shown)) name

variable {level : Log.Level}

theorem not_spells_int (n : Int) : ¬Spells (toString n) level.name := by
  cases n with
  | ofNat n =>
    obtain ⟨c,member⟩ := List.exists_mem_of_ne_nil (Nat.toDigits 10 n) Nat.toDigits_ne_nil
    refine (strange_of_isDigit (Text.isDigit_of_mem member)).not_spells ?_ level
    exact (Text.toList_natural n).symm ▸ member
  | negSucc n =>
    have dash : Strange '-' := by decide
    refine dash.not_spells ?_ level
    rw [Text.toList_negative]
    exact List.mem_cons_self

theorem quotationMark_strange (text : List Char) : Strange (Text.quotationMark text) := by
  unfold Text.quotationMark
  split <;> decide

theorem plain_rawText (text : List Char) :
    (rawText (text.map Char.toNat)).plain = String.ofList text := by
  have each (c : Char) : (if c.toNat.isValidChar then [Char.ofNat c.toNat] else
      Text.quotedNumber '"' c.toNat) = [c] := by
    have valid : c.toNat.isValidChar := c.valid
    rw [if_pos valid,Char.ofNat_toNat]
  rw [plain,List.flatMap_map]
  simp only [each,List.flatMap_singleton']

theorem names_of_rawText {numbers : List Nat} (spelled : Spells (rawText numbers).plain level.name) :
    (rawText numbers).Names level.name := by
  by_cases invalid : ∃ n ∈ numbers, ¬n.isValidChar
  · obtain ⟨n,member,invalid⟩ := invalid
    have backslash : Strange '\\' := by decide
    refine absurd spelled (backslash.not_spells ?_ level)
    rw [plain,String.toList_ofList,List.mem_flatMap]
    exact ⟨n,member,by rw [if_neg invalid,Text.quotedNumber,if_neg invalid]; exact List.mem_cons_self⟩
  · have valid (n : Nat) (member : n ∈ numbers) : n.isValidChar := by
      by_contra other
      exact invalid ⟨n,member,other⟩
    have whole : (numbers.map Char.ofNat).map Char.toNat = numbers := by
      rw [List.map_map]
      refine (List.map_congr_left fun n member => ?_).trans (List.map_id numbers)
      rw [Function.comp_apply,Char.ofNat,dif_pos (valid n member)]
      rfl
    rw [← whole,plain_rawText] at spelled
    rw [← whole]
    exact .rawText spelled

theorem spells_plain_iff {value : Value} : Spells value.plain level.name ↔ value.Names level.name := by
  have other : ∀ text ∈ ["","None","True","False"], ¬Spells text level.name := by
    cases level <;> decide
  constructor
  · intro spelled
    cases value with
    | text text => exact .text spelled
    | rawText numbers => exact names_of_rawText spelled
    | foreign shown =>
      cases shown with
      | ok shown => exact .foreign spelled
      | error reason => exact absurd spelled (other "" (by simp))
    | null => exact absurd spelled (other "None" (by simp))
    | bool value =>
      cases value
      · exact absurd spelled (other "False" (by simp))
      · exact absurd spelled (other "True" (by simp))
    | int n => exact absurd spelled (not_spells_int n)
    | float value => exact absurd spelled (value.not_spells level)
    | bytes content =>
      have mark := quotationMark_strange (content.map fun b => Char.ofNat b.toNat)
      exact absurd spelled (mark.not_spells (by simp [plain,shown,Text.quotedBytes]) level)
    | timestamp value =>
      have dash : Strange '-' := by decide
      refine absurd spelled (dash.not_spells ?_ level)
      cases value <;> simp [plain,Timestamp.plain,Date.plain]
    | list items =>
      have bracket : Strange '[' := by decide
      exact absurd spelled (bracket.not_spells (by simp [plain,shown]) level)
    | map entries =>
      have brace : Strange '\x7b' := by decide
      exact absurd spelled (brace.not_spells (by simp [plain,shown]) level)
  · intro names
    generalize level.name = name at names ⊢
    cases names with
    | text spelled | foreign spelled => exact spelled
    | rawText spelled =>
      rw [plain_rawText]
      exact spelled

end Yaml.Value

end TapeMachine
