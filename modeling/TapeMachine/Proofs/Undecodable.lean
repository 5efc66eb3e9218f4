import TapeMachine.Proofs.Decoding
import TapeMachine.Yaml.Document

-- A document has no value whose bytes stop being characters early on. Reading begins with two
-- portions, and no place in them is reached before all blocks in front of it are decoded.
namespace TapeMachine

namespace Utf8

theorem decode_eq_error {bytes undecoded : List UInt8} (failed : decode bytes = .error undecoded) :
    ∃ text, bytes = encode text ++ undecoded := by
  obtain ⟨text,rest,rfl,stuck⟩ := exists_stuck bytes
  rw [decode_encode_append text stuck] at failed
  split at failed
  · cases failed
  · cases failed
    exact ⟨text,rfl⟩

end Utf8

open Utf8

theorem EncodedUpTo.stuck {bytes : List UInt8} {p : Nat} {text : List Char} (upTo : EncodedUpTo bytes p)
    (encoded : bytes.take p = encode text) : first? (bytes.drop p) = none := by
  cases read : first? (bytes.drop p) with
  | none => rfl
  | some found =>
    obtain ⟨c,after⟩ := found
    have behind : bytes.drop p = String.utf8EncodeChar c ++ after := first?_eq_some_iff.mp read
    have parted : bytes = encode (text ++ [c]) ++ after := by
      rw [encode_append,← encoded,encode,List.flatMap_singleton,List.append_assoc,← behind,
        List.take_append_drop]
    have longer : (encode (text ++ [c])).length ≤ p := by
      apply upTo.longest
      · rw [parted]
        simp
      · exact ⟨text ++ [c],by rw [parted,List.take_left]⟩
    have length : (encode text).length = p := by
      rw [← encoded,List.length_take_of_le upTo.within]
    have width : 0 < (String.utf8EncodeChar c).length := by
      simpa using Char.utf8Size_pos c
    rw [encode_append,List.length_append,length] at longer
    have single : encode [c] = String.utf8EncodeChar c := by simp [encode]
    rw [single] at longer
    omega

namespace Yaml

theorem uniformLines_length_le (text : List Char) : (uniformLines text).length ≤ text.length := by
  fun_induction uniformLines text with
  | case1 rest ih => simp only [List.length_cons]; omega
  | case2 rest _ ih => simp only [List.length_cons]; omega
  | case3 c rest _ _ ih => simp only [List.length_cons]; omega
  | case4 => exact Nat.le_refl _

namespace Decoding

theorem decoded_eq_ok {bytes begun : List UInt8} {isLast : Bool} {text : List Char}
    (found : decoded bytes isLast = .ok (text,begun)) :
    bytes = encode text ++ begun ∧ (isLast = true → begun = []) := by
  unfold decoded at found
  split at found
  · rename_i whole
    cases found
    exact ⟨by rw [decode_eq_ok_iff.mp whole,List.append_nil],fun _ => rfl⟩
  · rename_i undecoded failed
    split at found
    · rename_i more
      split at found
      · rename_i beginning
        cases found
        obtain ⟨other,rfl⟩ := decode_eq_error failed
        have taken : (encode other ++ begun).take ((encode other ++ begun).length - begun.length) =
            encode other := by simp
        rw [taken] at beginning
        rw [← decode_eq_ok_iff.mp beginning]
        refine ⟨rfl,?_⟩
        rintro rfl
        simp at more
      · cases found
    · cases found

theorem decoded_eq_error {bytes : List UInt8} {isLast : Bool} {fault : Fault}
    (failed : decoded bytes isLast = .error fault) : fault = .undecodable := by
  unfold decoded at failed
  split at failed
  · cases failed
  · split at failed
    · split at failed <;> cases failed
      rfl
    · cases failed
      rfl

def Stops (most : Nat) (decoding : Decoding) : Prop :=
  ∃ text rest, rest ≠ [] ∧ first? rest = none ∧
    decoding.begun ++ decoding.bytes = encode text ++ rest ∧
    decoding.ready.length + decoding.returned.toNat + text.length ≤ most

variable {decoding : Decoding} {most : Nat}

theorem kept_length_le {keepsBack : Bool} {text : List Char} (holds : keepsBack = true → text ≠ []) :
    (uniformLines (if keepsBack = true then text.dropLast else text)).length + keepsBack.toNat ≤
      text.length := by
  cases keepsBack with
  | false => exact uniformLines_length_le text
  | true =>
    have shorter := uniformLines_length_le text.dropLast
    have last := List.length_pos_iff.mpr (holds rfl)
    rw [List.length_dropLast] at shorter
    simp only [if_true,Bool.toNat_true]
    omega

-- A return that was kept back is the only character that a block brings beyond its own.
theorem next_length_le {more : Decoding} {text : List Char} {begun : List UInt8} {wanted : Nat}
    (found : decoded (decoding.begun ++ decoding.bytes.take (decoding.blockFor wanted))
      (decoding.bytes.take (decoding.blockFor wanted)).isEmpty = .ok (text,begun))
    (next : decoding.next wanted = .ok more) :
    more.begun = begun ∧ more.bytes = decoding.bytes.drop (decoding.blockFor wanted) ∧
      more.ready.length + more.returned.toNat ≤ decoding.returned.toNat + text.length := by
  unfold Decoding.next at next
  simp only [found,bind,Except.bind,pure,Except.pure] at next
  cases next
  generalize (decoding.bytes.take (decoding.blockFor wanted)).isEmpty = isLast
  refine ⟨rfl,?_,?_⟩
  · simp
  · dsimp only
    generalize out : (decoding.returned && (isLast || !text.isEmpty)) = comesOut
    generalize whole : (if comesOut = true then '\r' :: text else text) = all
    generalize keeps : (!isLast && decide (all.getLast? = some '\r')) = keepsBack
    have bound : (uniformLines (if keepsBack = true then all.dropLast else all)).length +
        keepsBack.toNat ≤ all.length := by
      apply kept_length_le
      rintro rfl rfl
      simp at keeps
    cases comesOut with
    | true =>
      rw [Bool.and_eq_true] at out
      have length : all.length = text.length+1 := by rw [← whole]; rfl
      simp only [out.1,Bool.not_true,Bool.and_false,Bool.or_false,Bool.toNat_true]
      omega
    | false =>
      have length : all.length = text.length := by rw [← whole]; rfl
      cases keepsBack <;> cases decoding.returned <;> simp at bound ⊢ <;> omega

theorem Stops.next (stops : Stops most decoding) (wanted : Nat) :
    decoding.next wanted = .error .undecodable ∨ ∃ more, decoding.next wanted = .ok more ∧
      more.bytes.length < decoding.bytes.length ∧ Stops most more := by
  obtain ⟨text,rest,goesOn,stuck,parted,count⟩ := stops
  cases found : decoded (decoding.begun ++ decoding.bytes.take (decoding.blockFor wanted))
      (decoding.bytes.take (decoding.blockFor wanted)).isEmpty with
  | error fault =>
    cases decoded_eq_error found
    simp [Decoding.next,found,bind,Except.bind]
  | ok result =>
    obtain ⟨first,begun⟩ := result
    obtain ⟨block,ends⟩ := decoded_eq_ok found
    cases next : decoding.next wanted with
    | error fault => simp [Decoding.next,found,bind,Except.bind,pure,Except.pure] at next
    | ok more =>
      obtain ⟨begins,behind,length⟩ := next_length_le found next
      have rejoined : encode first ++ (begun ++ more.bytes) = encode text ++ rest := by
        rw [← List.append_assoc,← block,behind,List.append_assoc,List.take_append_drop,parted]
      obtain ⟨others,rfl,apart⟩ := encode_append_inj stuck rejoined
      refine .inr ⟨more,rfl,?_,others,rest,goesOn,stuck,begins ▸ apart,?_⟩
      · by_cases last : decoding.bytes = []
        · have after : more.bytes = [] := by rw [behind,last,List.drop_nil]
          have nothing : begun = [] := ends (by rw [last,List.take_nil]; rfl)
          rw [nothing,after] at apart
          exact (goesOn (List.append_eq_nil_iff.mp apart.symm).2).elim
        · have left := List.length_pos_iff.mpr last
          have block : 0 < decoding.blockFor wanted := Nat.lt_of_lt_of_le (by decide) (Nat.le_max_left _ _)
          rw [behind,List.length_drop]
          omega
      · rw [List.length_append] at count
        omega

theorem Stops.take (stops : Stops most decoding) (wanted : Nat) {fuel : Nat}
    (enough : decoding.bytes.length < fuel) :
    decoding.take wanted fuel = .error .undecodable ∨ ∃ found after,
      decoding.take wanted fuel = .ok (found,after) ∧ found.length = wanted ∧ wanted ≤ most ∧
        Stops (most - wanted) after := by
  induction fuel generalizing decoding most wanted with
  | zero => exact absurd enough (Nat.not_lt_zero _)
  | succ fuel ih =>
    obtain ⟨text,rest,goesOn,stuck,parted,count⟩ := stops
    unfold Decoding.take
    dsimp only
    by_cases whole : (decoding.ready.take wanted).length = wanted
    · rw [if_pos whole]
      rw [List.length_take] at whole
      refine .inr ⟨_,_,rfl,by simpa using whole,by omega,text,rest,goesOn,stuck,parted,?_⟩
      simp only [List.length_drop]
      omega
    · rw [if_neg whole]
      have few : decoding.ready.length < wanted := by
        rw [List.length_take] at whole
        omega
      have emptied : Stops (most - decoding.ready.length)
          { decoding with ready := decoding.ready.drop wanted } := by
        refine ⟨text,rest,goesOn,stuck,parted,?_⟩
        simp only [List.length_drop]
        omega
      have found : (decoding.ready.take wanted).length = decoding.ready.length := by
        rw [List.length_take]
        omega
      rcases emptied.next (wanted - (decoding.ready.take wanted).length) with
        failed | ⟨more,next,shorter,stops⟩
      · rw [failed]
        exact .inl rfl
      · have goesOn : decoding.bytes.isEmpty = false := by
          rw [List.isEmpty_eq_false_iff]
          exact List.ne_nil_of_length_pos (Nat.zero_lt_of_lt shorter)
        have fewer : more.bytes.length < fuel := Nat.lt_of_lt_of_le shorter (Nat.le_of_lt_succ enough)
        simp only [next,bind,Except.bind,goesOn,Bool.false_and,Bool.false_eq_true,if_false]
        rcases ih stops (wanted - (decoding.ready.take wanted).length) fewer with
          failed | ⟨others,after,taken,length,within,left⟩
        · rw [failed]
          exact .inl rfl
        · rw [taken]
          refine .inr ⟨_,_,rfl,?_,?_,?_⟩
          · rw [List.length_append,length]
            omega
          · omega
          · have same : most - decoding.ready.length - (wanted - (decoding.ready.take wanted).length) =
                most - wanted := by omega
            rw [← same]
            exact left

theorem Stops.portion (stops : Stops most decoding) : decoding.portion = .error .undecodable ∨
    ∃ found after, decoding.portion = .ok (found,after) ∧ portionSize ≤ most ∧
      Stops (most - portionSize) after := by
  rcases stops.take portionSize (Nat.lt_add_of_pos_right (by decide : 0 < 2)) with
    failed | ⟨found,after,taken,_,within,left⟩
  · exact .inl failed
  · exact .inr ⟨found,after,taken,within,left⟩

end Decoding

theorem Stretch.ofBytes_of_stops {bytes : List UInt8} {most : Nat}
    (stops : (Decoding.start bytes).Stops most) (early : most < 2*portionSize) :
    Stretch.ofBytes bytes = ⟨[],some .undecodable⟩ := by
  unfold Stretch.ofBytes
  rcases stops.portion with failed | ⟨found,after,first,within,stops⟩
  · rw [failed]
    rfl
  · rw [first]
    rcases stops.portion with failed | ⟨found,after,second,within,stops⟩
    · simp only [bind,Except.bind,failed]
    · omega

theorem read_nothing {room : Nat} (deep : 0 < room) (fault : Fault) :
    Node.ofTokens room (Token.read ⟨[],some fault⟩) = .error fault := by
  cases room with
  | zero => cases deep
  | succ room => rfl

theorem Value.ofBytes_undecodable {room : Nat} (deep : 0 < room) {bytes : List UInt8} {p : Nat} {text : List Char}
    (upTo : EncodedUpTo bytes p) (encoded : bytes.take p = encode text) (more : p < bytes.length)
    (early : text.length < 2*portionSize) : Value.ofBytes room bytes = .error .undecodable := by
  have parted : bytes = encode text ++ bytes.drop p := by rw [← encoded,List.take_append_drop]
  have goesOn : bytes.drop p ≠ [] := by simpa using more
  have stops : (Decoding.start bytes).Stops text.length :=
    ⟨text,bytes.drop p,goesOn,upTo.stuck encoded,parted,by simp [Decoding.start]⟩
  unfold Value.ofBytes
  rw [Stretch.ofBytes_of_stops stops early,read_nothing deep]
  rfl

end Yaml

end TapeMachine
