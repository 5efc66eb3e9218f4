import Mathlib.Logic.Basic
import TapeMachine.Settings.Document

-- Which values can be shown, and which are shown where a document is complained about.
namespace TapeMachine

open Yaml (Value)

namespace Yaml.Value

-- A number in it has too many digits to be written, or an object in it cannot be shown.
inductive Unshowable : Value → Prop where
  | number {n : Int} : Nat.pow 10 4300 ≤ n.natAbs → Unshowable (.int n)
  | item {items : List Value} {item : Value} : item ∈ items → Unshowable item → Unshowable (.list items)
  | key {entries : List (Value × Value)} {key value : Value} : (key,value) ∈ entries →
      Unshowable key → Unshowable (.map entries)
  | value {entries : List (Value × Value)} {key value : Value} : (key,value) ∈ entries →
      Unshowable value → Unshowable (.map entries)
  | object {reason : String} : Unshowable (.foreign (.error reason))

theorem or_ne_none_iff {α : Type} {first second : Option α} :
    first.or second ≠ none ↔ first ≠ none ∨ second ≠ none := by
  cases first <;> simp

mutual

theorem unshown?_ne_none_iff : (value : Value) → (value.unshown? ≠ none ↔ value.Unshowable)
  | int n => by
    have long : Nat.pow 10 4300 ≤ n.natAbs ↔ ¬Text.isWritable n = true := by
      have numeral : Text.longestNumeral = 4300 := rfl
      rw [← numeral,Text.isWritable]
      generalize Nat.pow 10 Text.longestNumeral = bound
      simp
    have number : (int n).Unshowable ↔ Nat.pow 10 4300 ≤ n.natAbs := by
      constructor
      · rintro ⟨long⟩
        exact long
      · exact .number
    rw [number,long,unshown?]
    cases Text.isWritable n <;> simp
  | list items => by
    rw [unshown?,unshownItem?_ne_none_iff items]
    constructor
    · rintro ⟨item,member,unshowable⟩
      exact .item member unshowable
    · rintro ⟨⟩
      exact ⟨_,by assumption,by assumption⟩
  | map entries => by
    rw [unshown?,unshownPair?_ne_none_iff entries]
    constructor
    · rintro ⟨⟨key,value⟩,member,unshowable | unshowable⟩
      · exact .key member unshowable
      · exact .value member unshowable
    · intro unshowable
      cases unshowable with
      | key member unshowable => exact ⟨_,member,.inl unshowable⟩
      | value member unshowable => exact ⟨_,member,.inr unshowable⟩
  | foreign (.error reason) => ⟨fun _ => .object,fun _ => Option.some_ne_none reason⟩
  | foreign (.ok _) => ⟨fun unshown => (unshown rfl).elim,by rintro ⟨⟩⟩
  | null | bool _ | float _ | text _ | rawText _ | bytes _ | timestamp _ =>
    ⟨fun unshown => (unshown rfl).elim,by rintro ⟨⟩⟩

theorem unshownItem?_ne_none_iff :
    (items : List Value) → (unshownItem? items ≠ none ↔ ∃ item ∈ items, item.Unshowable)
  | [] => by simp [unshownItem?]
  | item :: items => by
    simp only [unshownItem?,or_ne_none_iff,unshown?_ne_none_iff item,unshownItem?_ne_none_iff items,
      List.mem_cons,exists_eq_or_imp]

theorem unshownPair?_ne_none_iff : (entries : List (Value × Value)) → (unshownPair? entries ≠ none ↔
    ∃ entry ∈ entries, entry.1.Unshowable ∨ entry.2.Unshowable)
  | [] => by simp [unshownPair?]
  | (key,value) :: entries => by
    simp only [unshownPair?,or_ne_none_iff,unshown?_ne_none_iff key,unshown?_ne_none_iff value,
      unshownPair?_ne_none_iff entries,List.mem_cons,exists_eq_or_imp]

end
end Yaml.Value

namespace SettingsError

inductive Shows : SettingsError → Value → Prop where
  | unknownKeys {keys : List Value} {key : Value} : key ∈ keys → Shows (.unknownKeys keys) key
  | notPositive {name : String} {found : Value} : Shows (.notPositive name found) found
  | notBoolean {name : String} {found : Value} : Shows (.notBoolean name found) found
  | tapeTooLarge {size : Int} : Shows (.tapeTooLarge size) (.int size)
  | unknownLevel {found : Value} : Shows (.unknownLevel found) found

theorem mem_shows_iff {cause : SettingsError} {found : Value} :
    found ∈ cause.shows ↔ cause.Shows found := by
  constructor
  · intro member
    cases cause with
    | unknownKeys keys => exact .unknownKeys member
    | notPositive | notBoolean | tapeTooLarge | unknownLevel =>
      cases List.mem_singleton.mp member
      constructor
    | _ => cases member
  · intro shown
    cases shown with
    | unknownKeys member => exact member
    | _ => exact List.mem_singleton_self _

end SettingsError

end TapeMachine
