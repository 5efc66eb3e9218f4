import TapeMachine.Yaml.Document

-- Which value a document describes can be found out where the value is of the common kinds.
namespace TapeMachine.Yaml

namespace Value

mutual

def same : Value → Value → Bool
  | null,null => true
  | bool value,bool other => value = other
  | int value,int other => value = other
  | text value,text other => value = other
  | list items,list others => sameItems items others
  | map entries,map others => sameEntries entries others
  | _,_ => false

def sameItems : List Value → List Value → Bool
  | [],[] => true
  | item :: items,other :: others => same item other && sameItems items others
  | _,_ => false

def sameEntries : List (Value × Value) → List (Value × Value) → Bool
  | [],[] => true
  | (key,value) :: entries,(otherKey,otherValue) :: others =>
    same key otherKey && same value otherValue && sameEntries entries others
  | _,_ => false

end

mutual

theorem eq_of_same {value other : Value} (alike : value.same other = true) : value = other := by
  cases value with
  | list items =>
    cases other <;> simp only [same,Bool.false_eq_true] at alike
    rw [eq_of_sameItems alike]
  | map entries =>
    cases other <;> simp only [same,Bool.false_eq_true] at alike
    rw [eq_of_sameEntries alike]
  | _ => cases other <;> simp_all [same]

theorem eq_of_sameItems {items others : List Value} (alike : sameItems items others = true) :
    items = others := by
  cases items with
  | nil => cases others <;> simp_all [sameItems]
  | cons item items =>
    cases others with
    | nil => simp [sameItems] at alike
    | cons other others =>
      rw [sameItems,Bool.and_eq_true] at alike
      rw [eq_of_same alike.1,eq_of_sameItems alike.2]

theorem eq_of_sameEntries {entries others : List (Value × Value)}
    (alike : sameEntries entries others = true) : entries = others := by
  cases entries with
  | nil => cases others <;> simp_all [sameEntries]
  | cons entry entries =>
    cases others with
    | nil => simp [sameEntries] at alike
    | cons other others =>
      obtain ⟨key,value⟩ := entry
      obtain ⟨otherKey,otherValue⟩ := other
      simp only [sameEntries,Bool.and_eq_true] at alike
      obtain ⟨⟨keys,values⟩,rest⟩ := alike
      rw [eq_of_same keys,eq_of_same values,eq_of_sameEntries rest]

end

end Value

def shallowReader : Reader := plainReader 10

def describes (bytes : List UInt8) (value : Value) : Bool :=
  match shallowReader bytes with
  | .ok found => found.same value
  | .error _ => false

theorem read_of_describes {bytes : List UInt8} {value : Value} (found : describes bytes value = true) :
    shallowReader bytes = .ok value := by
  unfold describes at found
  split at found
  · rename_i read
    rw [read,Value.eq_of_same found]
  · cases found

end TapeMachine.Yaml
