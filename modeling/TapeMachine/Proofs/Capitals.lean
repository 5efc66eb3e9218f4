import Mathlib.Data.Bool.AllAny
import Mathlib.Data.List.Forall2
import Mathlib.Data.List.Infix
import TapeMachine.Settings

-- Names in whatever case. A text has a level's name for its capitals just if it spells the name
-- letter by letter, in small letters or capital ones.
namespace TapeMachine

-- The dotless letter has the same capital as the dotted one.
def Cased (c letter : Char) : Prop := c = letter ∨ c = letter.toLower ∨ c = 'ı' ∧ letter = 'I'

def Spells (text name : String) : Prop := List.Forall₂ Cased text.toList name.toList

namespace Text

-- ASCII's capitals but for the one that is the capital of the long letter as well.
def lonelyCapitals : List Char := "ABCDEFGHIJKLMNOPQRTUVWXYZ".toList

def Loose (word : List Char) : Prop :=
  ∀ entry ∈ foreignCapitals, 1 < entry.2.length → ¬ entry.2 <:+: word

theorem Loose.tail {letter : Char} {word : List Char} (loose : Loose (letter :: word)) : Loose word :=
  fun entry member long within => loose entry member long (within.trans (List.suffix_cons letter word).isInfix)

theorem capital_cases (c : Char) : (∃ letter, capital c = [letter]) ∨
    ∃ entry ∈ foreignCapitals, 1 < entry.2.length ∧ capital c = entry.2 := by
  unfold capital
  split
  · rename_i capitals found
    obtain ⟨before,after,order,_⟩ := List.lookup_eq_some_iff.mp found
    have foreign : (c,capitals) ∈ foreignCapitals := by simp [order]
    have filled : ∀ entry ∈ foreignCapitals, (∃ letter, entry.2 = [letter]) ∨ 1 < entry.2.length := by
      simp [foreignCapitals]
    rcases filled _ foreign with single | long
    · exact .inl single
    · exact .inr ⟨_,foreign,long,rfl⟩
  · exact .inl ⟨_,rfl⟩

theorem capital_eq_iff {c letter : Char} (lonely : letter ∈ lonelyCapitals) :
    capital c = [letter] ↔ Cased c letter := by
  unfold Cased
  by_cases small : c.toNat < 128
  · have ascii : ∀ letter ∈ lonelyCapitals, ∀ n < 128, (Char.ofNat n).toUpper = letter ↔
        Char.ofNat n = letter ∨ Char.ofNat n = letter.toLower ∨ Char.ofNat n = 'ı' ∧ letter = 'I' :=
      List.all_iff_forall_prop.mp (by decide +kernel)
    rw [capital_ascii small,List.singleton_inj]
    simpa using ascii letter lonely c.toNat small
  · have wide : 128 ≤ c.toNat := Nat.not_lt.mp small
    have narrow : ∀ letter ∈ lonelyCapitals, letter.toNat < 128 ∧ letter.toLower.toNat < 128 :=
      List.all_iff_forall_prop.mp (by decide)
    have apart : c ≠ letter ∧ c ≠ letter.toLower := by
      constructor <;> rintro rfl
      · exact absurd (narrow _ lonely).1 small
      · exact absurd (narrow _ lonely).2 small
    by_cases foreign : ∀ entry ∈ foreignCapitals, c ≠ entry.1
    · have dotted : c ≠ 'ı' := foreign ('ı',['I']) (by decide)
      simp [capital_other wide foreign,apart,dotted]
    · push Not at foreign
      obtain ⟨entry,member,rfl⟩ := foreign
      have table : ∀ letter ∈ lonelyCapitals, ∀ entry ∈ foreignCapitals,
          entry.2 = [letter] ↔ entry.1 = 'ı' ∧ letter = 'I' := List.all_iff_forall_prop.mp (by decide)
      rw [capital_foreign member]
      simpa [apart] using table letter lonely entry member

theorem flatMap_capital_iff {text word : List Char} (lonely : ∀ letter ∈ word, letter ∈ lonelyCapitals)
    (loose : Loose word) : text.flatMap capital = word ↔ List.Forall₂ Cased text word := by
  induction text generalizing word with
  | nil => simp [eq_comm]
  | cons c text ih =>
    rw [List.flatMap_cons]
    rcases capital_cases c with ⟨capital,single⟩ | ⟨entry,foreign,long,joined⟩
    · rw [single,List.singleton_append]
      cases word with
      | nil => simp
      | cons letter word =>
        have first := capital_eq_iff (c := c) (lonely letter List.mem_cons_self)
        have rest := ih (fun letter member => lonely letter (List.mem_cons_of_mem _ member)) loose.tail
        rw [List.cons.injEq,List.forall₂_cons,rest,← first,single,List.singleton_inj]
    · -- Several capitals at once would stand beside each other in the word.
      constructor
      · rintro rfl
        rw [joined] at loose
        exact absurd (List.prefix_append _ _).isInfix (loose entry foreign long)
      · intro spelled
        cases spelled with
        | cons first rest =>
          have single := (capital_eq_iff (lonely _ List.mem_cons_self)).mpr first
          rw [← joined,single] at long
          exact absurd long (Nat.lt_irrefl 1)

end Text

theorem Log.Level.capitals_eq_iff (text : String) (level : Log.Level) :
    Text.capitals text = level.name ↔ Spells text level.name := by
  have lonely : ∀ letter ∈ level.name.toList, letter ∈ Text.lonelyCapitals := by
    cases level <;> exact List.all_iff_forall_prop.mp (by decide)
  have loose : Text.Loose level.name.toList := by
    unfold Text.Loose
    cases level <;> decide
  rw [Spells,← Text.flatMap_capital_iff lonely loose,Text.capitals,← String.toList_inj,
    String.toList_ofList]

theorem Log.Level.inAnyCase?_eq_some_iff {text : String} {level : Log.Level} :
    inAnyCase? text = some level ↔ Spells text level.name := by
  rw [inAnyCase?,named?_eq_some_iff,capitals_eq_iff]

end TapeMachine
