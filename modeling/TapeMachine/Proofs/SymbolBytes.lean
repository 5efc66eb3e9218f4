import TapeMachine.Assembly.Listing
import TapeMachine.Tape

-- The bytes of symbols and of drawings, for symbols of one byte each.
namespace TapeMachine.Assembly

theorem textBytes_append (first rest : String) :
    textBytes (first ++ rest) = textBytes first ++ textBytes rest := by
  simp [textBytes,Utf8.encode]

theorem textBytes_join (texts : List String) :
    textBytes (String.join texts) = texts.flatMap textBytes := by
  induction texts with
  | nil => rfl
  | cons text texts ih => rw [String.join_cons,textBytes_append,ih,List.flatMap_cons]

theorem textBytes_blanks (count : Nat) :
    textBytes ("".pushn ' ' count) = List.replicate count 32 := by
  rw [textBytes,toList_blanks,Utf8.encode,List.flatMap_replicate]
  exact List.flatten_replicate_singleton

theorem byte_of_narrow {symbol : String} (narrow : (textBytes symbol).length = 1) :
    ∃ byte : UInt8, textBytes symbol = [byte] ∧ codePoint symbol = .ok byte.toNat := by
  cases characters : symbol.toList with
  | nil => simp [textBytes,Utf8.encode,characters] at narrow
  | cons c rest =>
    cases rest with
    | nil =>
      have size : c.utf8Size = 1 := by simpa [textBytes,Utf8.encode,characters] using narrow
      have small : c.val ≤ 127 := Char.utf8Size_eq_one_iff.mp size
      refine ⟨c.val.toUInt8,?_,?_⟩
      · simp [textBytes,Utf8.encode,characters,String.utf8EncodeChar_eq_singleton size]
      · have fits : c.toNat % 256 = c.toNat := Nat.mod_eq_of_lt (Nat.lt_of_le_of_lt small (by decide))
        have same : c.val.toUInt8.toNat = c.toNat := by rw [UInt32.toNat_toUInt8]; exact fits
        rw [codePoint,characters,same]
    | cons d rest =>
      have first := c.utf8Size_pos
      have second := d.utf8Size_pos
      simp [textBytes,Utf8.encode,characters] at narrow
      omega

def cellBytes (cells : List UInt8) : List UInt8 := cells.flatMap fun byte => [byte,32]

theorem cellBytes_length (cells : List UInt8) : (cellBytes cells).length = 2*cells.length := by
  induction cells with
  | nil => rfl
  | cons byte cells ih => simp [cellBytes] at ih ⊢; omega

def drawnBytes (cells : List UInt8) (head : Nat) : List UInt8 :=
  [91,32] ++ cellBytes cells ++ [93,10] ++ List.replicate (2*head+2) 32 ++ [94,10]

theorem drawnBytes_length (cells : List UInt8) (head : Nat) :
    (drawnBytes cells head).length = 2*cells.length+2*head+8 := by
  simp [drawnBytes,cellBytes_length]
  omega

section
variable {cells : List String} (narrow : ∀ symbol ∈ cells, (textBytes symbol).length = 1)
include narrow

theorem narrow_length : (cells.flatMap textBytes).length = cells.length := by
  induction cells with
  | nil => rfl
  | cons symbol cells ih =>
    have later := ih fun symbol member => narrow symbol (List.mem_cons_of_mem _ member)
    rw [List.flatMap_cons,List.length_append,later,narrow symbol (by simp),List.length_cons]
    omega

theorem textBytes_spaced (some : cells ≠ []) :
    textBytes (" ".intercalate cells) ++ [32] = cellBytes (cells.flatMap textBytes) := by
  induction cells with
  | nil => contradiction
  | cons symbol cells ih =>
    obtain ⟨byte,bytes,_⟩ := byte_of_narrow (narrow symbol (by simp))
    cases cells with
    | nil => simp [bytes,cellBytes]
    | cons next cells =>
      have later := ih (fun symbol member => narrow symbol (List.mem_cons_of_mem _ member)) (by simp)
      have blank : textBytes " " = [32] := rfl
      rw [String.intercalate_cons_cons,textBytes_append,textBytes_append,List.append_assoc,later,
        bytes,blank,@List.flatMap_cons _ _ symbol,bytes]
      rfl

theorem textBytes_drawTape (some : cells ≠ []) (head : Int) :
    textBytes (drawTape cells head) = drawnBytes (cells.flatMap textBytes) head.toNat := by
  show textBytes ("[ " ++ " ".intercalate cells ++ " ]\n  " ++ "".pushn ' ' (2*head.toNat) ++ "^\n") = _
  have opening : textBytes "[ " = [91,32] := rfl
  have closing : textBytes " ]\n  " = [32] ++ ([93,10] ++ [32,32]) := rfl
  have caret : textBytes "^\n" = [94,10] := rfl
  have padding : List.replicate (2*head.toNat+2) (32 : UInt8) =
      [32,32] ++ List.replicate (2*head.toNat) 32 := rfl
  simp only [textBytes_append,textBytes_blanks,opening,closing,caret,drawnBytes,padding,
    ←textBytes_spaced narrow some,List.append_assoc]

end

end TapeMachine.Assembly
