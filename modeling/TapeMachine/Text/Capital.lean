-- Capital forms, as far as they are written in ASCII letters. That suffices to compare a text
-- with a word of ASCII capitals.
namespace TapeMachine.Text

def foreignCapitals : List (Char × List Char) :=
  [('ı',['I']),('ſ',['S']),('ß',['S','S']),('ﬀ',['F','F']),('ﬁ',['F','I']),('ﬂ',['F','L']),
    ('ﬃ',['F','F','I']),('ﬄ',['F','F','L']),('ﬅ',['S','T']),('ﬆ',['S','T'])]

def capital (c : Char) : List Char :=
  match foreignCapitals.lookup c with
  | some capitals => capitals
  | none => [c.toUpper]

def capitals (text : String) : String := String.ofList (text.toList.flatMap capital)

theorem capital_foreign {c : Char} {capitals : List Char} (foreign : (c,capitals) ∈ foreignCapitals) :
    capital c = capitals := by
  have all : ∀ entry ∈ foreignCapitals, capital entry.1 = entry.2 := by decide
  exact all _ foreign

theorem lookup_of_ne {c : Char} (other : ∀ entry ∈ foreignCapitals, c ≠ entry.1) :
    foreignCapitals.lookup c = none :=
  List.lookup_eq_none_iff.mpr fun entry member => bne_iff_ne.mpr (other entry member)

theorem capital_ascii {c : Char} (small : c.toNat < 128) : capital c = [c.toUpper] := by
  have wide : ∀ entry ∈ foreignCapitals, 128 ≤ entry.1.toNat := by decide
  have other : ∀ entry ∈ foreignCapitals, c ≠ entry.1 := by
    intro entry member same
    have above := wide entry member
    rw [← same] at above
    omega
  rw [capital,lookup_of_ne other]

theorem toUpper_of_wide {c : Char} (wide : 128 ≤ c.toNat) : c.toUpper = c := by
  have beyond : ¬ (97 ≤ c.val ∧ c.val ≤ 122) := by
    rw [UInt32.le_iff_toNat_le,UInt32.le_iff_toNat_le,Char.toNat_val]
    intro within
    exact absurd (Nat.le_trans wide within.2) (by decide)
  exact dif_neg beyond

theorem capital_other {c : Char} (wide : 128 ≤ c.toNat)
    (other : ∀ entry ∈ foreignCapitals, c ≠ entry.1) : capital c = [c] := by
  rw [capital,lookup_of_ne other,toUpper_of_wide wide]

end TapeMachine.Text
