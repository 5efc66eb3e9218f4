import TapeMachine.Text.Digit

-- Whole numbers are read back from what is written for them, as long as they may be written.
namespace TapeMachine.Text

theorem exists_of_isDigit {c : Char} (digit : c.isDigit = true) :
    ∃ n < 10, c = Char.ofNat (48+n) := by
  simp only [Char.isDigit,Bool.and_eq_true,decide_eq_true_eq,UInt32.le_iff_toNat_le] at digit
  have low : 48 ≤ c.toNat := digit.1
  have high : c.toNat ≤ 57 := digit.2
  refine ⟨c.toNat - 48,by omega,?_⟩
  rw [Nat.add_sub_cancel' low,Char.ofNat_toNat]

theorem digit?_of_isDigit {c : Char} (digit : c.isDigit = true) : digit? c = some (c.toNat - 48) := by
  obtain ⟨n,small,rfl⟩ := exists_of_isDigit digit
  revert n
  decide

theorem not_blank_of_isDigit {c : Char} (digit : c.isDigit = true) : isBlank c = false := by
  obtain ⟨n,small,rfl⟩ := exists_of_isDigit digit
  revert n
  decide

theorem ne_of_isDigit {c d : Char} (digit : c.isDigit = true) (other : d.isDigit = false) : c ≠ d := by
  rintro rfl
  exact Bool.noConfusion (digit.symm.trans other)

theorem digitsFrom_digits {text : List Char} (digits : ∀ c ∈ text, c.isDigit = true)
    (afterDigit : Bool) (any : afterDigit = true ∨ text ≠ []) :
    digitsFrom afterDigit text = some (text.map fun c => c.toNat - 48) := by
  induction text generalizing afterDigit with
  | nil => simp_all [digitsFrom]
  | cons c rest ih =>
    have first := digits c List.mem_cons_self
    have others := ih (fun c member => digits c (List.mem_cons_of_mem _ member)) true (.inl rfl)
    have joins : c ≠ '_' := ne_of_isDigit first rfl
    simp [digitsFrom,joins,digit?_of_isDigit first,others]

theorem valueOf_digits (text : List Char) :
    valueOf 10 (text.map fun c => c.toNat - 48) = Nat.ofDigitChars 10 text 0 := by
  rw [valueOf,List.foldl_map,Nat.ofDigitChars_eq_foldl]
  rfl

theorem isDigit_of_mem {n : Nat} {c : Char} (member : c ∈ Nat.toDigits 10 n) : c.isDigit = true :=
  Nat.isDigit_of_mem_toDigits (by omega) (by omega) member

theorem natural?_toDigits (n : Nat) :
    natural? (Nat.toDigits 10 n) = if n < Nat.pow 10 longestNumeral then some n else none := by
  have short (most : Nat) (some : 0 < most) :
      (Nat.toDigits 10 n).length ≤ most ↔ n < Nat.pow 10 most :=
    Nat.length_toDigits_le_iff (by omega) some
  have short := short longestNumeral (Nat.succ_pos 4299)
  have read := digitsFrom_digits (fun _ => isDigit_of_mem (n := n)) false (.inr Nat.toDigits_ne_nil)
  simp only [natural?,read,Option.bind_eq_bind,Option.bind_some,List.length_map,valueOf_digits,
    Nat.ofDigitChars_ten_toDigits]
  by_cases fits : n < Nat.pow 10 longestNumeral
  · rw [if_pos fits,if_neg (Nat.not_lt.mpr (short.mpr fits))]
    rfl
  · rw [if_neg fits,if_pos (Nat.not_le.mp fun within => fits (short.mp within))]

theorem dropWhile_isBlank {text : List Char} (none : ∀ c ∈ text, isBlank c = false) :
    text.dropWhile isBlank = text := by
  cases text with
  | nil => rfl
  | cons c rest => rw [List.dropWhile_cons_of_neg (by simp [none c List.mem_cons_self])]

theorem trimBlanks_of_none {text : List Char} (none : ∀ c ∈ text, isBlank c = false) :
    trimBlanks text = text := by
  rw [trimBlanks,dropWhile_isBlank none,dropWhile_isBlank (by simpa using none),List.reverse_reverse]

theorem toList_natural (n : Nat) : (toString (n : Int)).toList = Nat.toDigits 10 n := Nat.toList_repr

theorem toList_negative (n : Nat) :
    (toString (Int.negSucc n)).toList = '-' :: Nat.toDigits 10 (n+1) := by
  show ("-" ++ (n+1).repr).toList = _
  rw [String.toList_append,Nat.toList_repr]
  rfl

theorem integer?_toString (n : Int) :
    integer? (toString n) = if isWritable n then some n else none := by
  unfold integer? isWritable
  cases n with
  | ofNat n =>
    obtain ⟨c,rest,digits⟩ := List.exists_cons_of_ne_nil (Nat.toDigits_ne_nil (b := 10) (n := n))
    have first : c.isDigit = true := isDigit_of_mem (digits ▸ List.mem_cons_self)
    have read := natural?_toDigits n
    rw [Int.ofNat_eq_natCast,toList_natural,
      trimBlanks_of_none fun d member => not_blank_of_isDigit (isDigit_of_mem member)]
    rw [digits] at read ⊢
    split
    · rename_i same
      cases same
      cases first
    · rename_i same
      cases same
      cases first
    · simp only [read,Int.natAbs_natCast,decide_eq_true_eq]
      by_cases fits : n < Nat.pow 10 longestNumeral
      · rw [if_pos fits,if_pos fits]
        rfl
      · rw [if_neg fits,if_neg fits]
        rfl
  | negSucc n =>
    have blankless : ∀ d ∈ '-' :: Nat.toDigits 10 (n+1), isBlank d = false := by
      intro d member
      rcases List.mem_cons.mp member with rfl | digit
      · rfl
      · exact not_blank_of_isDigit (isDigit_of_mem digit)
    rw [toList_negative,trimBlanks_of_none blankless]
    simp only [natural?_toDigits,Int.natAbs_negSucc,Nat.succ_eq_add_one,decide_eq_true_eq]
    by_cases fits : n+1 < Nat.pow 10 longestNumeral
    · rw [if_pos fits,if_pos fits]
      rfl
    · rw [if_neg fits,if_neg fits]
      rfl

end TapeMachine.Text
