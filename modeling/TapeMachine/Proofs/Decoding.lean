import Mathlib.Data.List.Induction
import TapeMachine.Source.Program

-- Bytes give back exactly the text that they encode, and if they encode none, the cause tells
-- where the longest beginning that encodes one ends.
namespace TapeMachine

namespace Utf8

theorem form?_eq_some_iff {b : UInt8} {form : Form} : form? b = some form ↔
    b.toNat < 0x80 ∧ form = ⟨0,b.toNat,0⟩ ∨
    0xc0 ≤ b.toNat ∧ b.toNat < 0xe0 ∧ form = ⟨1,b.toNat - 0xc0,0x80⟩ ∨
    0xe0 ≤ b.toNat ∧ b.toNat < 0xf0 ∧ form = ⟨2,b.toNat - 0xe0,0x800⟩ ∨
    0xf0 ≤ b.toNat ∧ b.toNat < 0xf8 ∧ form = ⟨3,b.toNat - 0xf0,0x10000⟩ := by
  have below (limit : UInt8) : b < limit ↔ b.toNat < limit.toNat := UInt8.lt_iff_toNat_lt
  simp only [form?,below,UInt8.toNat_ofNat]
  grind

structure Leads (b : UInt8) (form : Form) (n : Nat) : Prop where
  announced : form? b = some form
  bits : form.bits = n / Nat.pow 64 form.continuations
  least : form.least ≤ n

theorem leads_iff {b : UInt8} {form : Form} {n : Nat} : Leads b form n ↔
    n < 0x80 ∧ b.toNat = n ∧ form = ⟨0,n,0⟩ ∨
    0x80 ≤ n ∧ n < 0x800 ∧ b.toNat = n/64 + 0xc0 ∧ form = ⟨1,n/64,0x80⟩ ∨
    0x800 ≤ n ∧ n < 0x10000 ∧ b.toNat = n/4096 + 0xe0 ∧ form = ⟨2,n/4096,0x800⟩ ∨
    0x10000 ≤ n ∧ n < 0x200000 ∧ b.toNat = n/262144 + 0xf0 ∧ form = ⟨3,n/262144,0x10000⟩ := by
  constructor
  · rintro ⟨announced,bits,least⟩
    rcases form?_eq_some_iff.mp announced with ⟨_,rfl⟩ | ⟨_,_,rfl⟩ | ⟨_,_,rfl⟩ | ⟨_,_,rfl⟩
    all_goals
      simp [Nat.pow] at bits least ⊢
      omega
  · rintro (⟨_,_,rfl⟩ | ⟨_,_,_,rfl⟩ | ⟨_,_,_,rfl⟩ | ⟨_,_,_,rfl⟩)
    all_goals
      refine ⟨form?_eq_some_iff.mpr ?_,by simp [Nat.pow],by simp [*]⟩
      simp
      omega

theorem Leads.unique {b b' : UInt8} {form form' : Form} {n : Nat} (leads : Leads b form n)
    (leads' : Leads b' form' n) : b = b' ∧ form = form' := by
  have form := leads_iff.mp leads
  have form' := leads_iff.mp leads'
  rw [← UInt8.toNat_inj]
  grind

theorem byte_eq_iff (b : UInt8) {n : Nat} (small : n < 256) : b = UInt8.ofNat n ↔ b.toNat = n := by
  rw [← UInt8.toNat_inj,UInt8.toNat_ofNat',Nat.mod_eq_of_lt small]

def continuations : Nat → Nat → List UInt8
  | 0,_ => []
  | count+1,n => UInt8.ofNat (n / Nat.pow 64 count % 64 + 0x80) :: continuations count n

theorem continued?_eq_some_iff {count n m : Nat} {bytes after : List UInt8} :
    continued? count n bytes = some (m,after) ↔
      n = m / Nat.pow 64 count ∧ bytes = continuations count m ++ after := by
  induction count generalizing n bytes with
  | zero => simp [continued?,continuations]
  | succ count ih =>
    have parted : m / Nat.pow 64 (count+1) = m / Nat.pow 64 count / 64 :=
      (Nat.div_div_eq_div_mul m (Nat.pow 64 count) 64).symm
    cases bytes with
    | nil => simp [continued?,continuations]
    | cons b bytes =>
      have least : (0x80 : UInt8) ≤ b ↔ 0x80 ≤ b.toNat := UInt8.le_iff_toNat_le
      have most : b < (0xc0 : UInt8) ↔ b.toNat < 0xc0 := UInt8.lt_iff_toNat_lt
      have same : b = UInt8.ofNat (m / Nat.pow 64 count % 64 + 0x80) ↔ _ := byte_eq_iff b (by omega)
      simp only [continued?,continuations,least,most,List.cons_append,List.cons.injEq,same,parted]
      split
      · rw [ih,← and_assoc]
        refine and_congr_left fun _ => ?_
        omega
      · rename_i outside
        refine iff_of_false (by simp) ?_
        rintro ⟨_,_,_⟩
        omega

theorem character_lt (c : Char) : c.toNat < 0x110000 := by
  rcases c.valid with below | above
  · exact Nat.lt_trans below (by decide)
  · exact above.2

theorem exists_leads (c : Char) : ∃ b form, Leads b form c.toNat ∧
    String.utf8EncodeChar c = b :: continuations form.continuations c.toNat := by
  have bound := character_lt c
  have number : c.val.toNat = c.toNat := rfl
  have byte {n : Nat} (small : n < 256) : (UInt8.ofNat n).toNat = n := (byte_eq_iff _ small).mp rfl
  unfold String.utf8EncodeChar
  simp only [number]
  split
  · exact ⟨_,_,leads_iff.mpr (.inl ⟨by omega,byte (by omega),rfl⟩),rfl⟩
  split
  · refine ⟨UInt8.ofNat (c.toNat/64 % 32 + 192),⟨1,_,_⟩,
      leads_iff.mpr (.inr (.inl ⟨by omega,by omega,?_,rfl⟩)),by simp [continuations,Nat.pow]⟩
    rw [byte (by omega)]
    omega
  split
  · refine ⟨UInt8.ofNat (c.toNat/4096 % 16 + 224),⟨2,_,_⟩,
      leads_iff.mpr (.inr (.inr (.inl ⟨by omega,by omega,?_,rfl⟩))),by simp [continuations,Nat.pow]⟩
    rw [byte (by omega)]
    omega
  · refine ⟨UInt8.ofNat (c.toNat/262144 % 8 + 240),⟨3,_,_⟩,
      leads_iff.mpr (.inr (.inr (.inr ⟨by omega,by omega,?_,rfl⟩))),by simp [continuations,Nat.pow]⟩
    rw [byte (by omega)]
    omega

theorem first?_eq_some_iff {c : Char} {bytes after : List UInt8} :
    first? bytes = some (c,after) ↔ bytes = String.utf8EncodeChar c ++ after := by
  obtain ⟨b,form,leads,spelled⟩ := exists_leads c
  constructor
  · intro read
    unfold first? at read
    split at read
    · cases read
    split at read
    · cases read
    rename_i b' bytes form' announced
    split at read
    · cases read
    rename_i n after' continued
    split at read
    · rename_i kept
      obtain ⟨least,valid⟩ := kept
      obtain ⟨bits,rfl⟩ := continued?_eq_some_iff.mp continued
      obtain ⟨rfl,rfl⟩ : Char.ofNat n = c ∧ after' = after := by simpa using read
      have number : (Char.ofNat n).toNat = n := by
        rw [Char.ofNat,dif_pos valid]
        rfl
      rw [number] at leads spelled
      obtain ⟨rfl,rfl⟩ := leads.unique ⟨announced,bits,least⟩
      rw [spelled,List.cons_append]
    · cases read
  · rintro rfl
    have continued : continued? form.continuations form.bits
        (continuations form.continuations c.toNat ++ after) = some (c.toNat,after) :=
      continued?_eq_some_iff.mpr ⟨leads.bits,rfl⟩
    simp only [spelled,List.cons_append,first?,leads.announced,continued]
    rw [if_pos ⟨leads.least,c.valid⟩,Char.ofNat_toNat]

theorem first?_encode (c : Char) (text : List Char) (rest : List UInt8) :
    first? (encode (c :: text) ++ rest) = some (c,encode text ++ rest) :=
  first?_eq_some_iff.mpr (by simp [encode])

theorem decodeFrom_encode (before text : List Char) (rest : List UInt8) :
    decodeFrom before (encode text ++ rest) = decodeFrom (text.reverse ++ before) rest := by
  induction text generalizing before with
  | nil => rfl
  | cons c text ih =>
    rw [decodeFrom]
    split
    · rename_i d after read
      obtain ⟨rfl,rfl⟩ : c = d ∧ encode text ++ rest = after := by simpa [first?_encode] using read
      rw [ih]
      simp
    · rename_i none
      simp [first?_encode] at none

theorem decode_encode_append (text : List Char) {rest : List UInt8} (stuck : first? rest = none) :
    decode (encode text ++ rest) = if rest.isEmpty then .ok text else .error rest := by
  rw [decode,decodeFrom_encode,decodeFrom]
  split
  · rename_i read
    rw [stuck] at read
    cases read
  · simp

theorem exists_stuck (bytes : List UInt8) :
    ∃ text rest, bytes = encode text ++ rest ∧ first? rest = none := by
  induction length : bytes.length using Nat.strongRecOn generalizing bytes with
  | ind count ih =>
    cases read : first? bytes with
    | none => exact ⟨[],bytes,rfl,read⟩
    | some found =>
      obtain ⟨c,after⟩ := found
      obtain ⟨text,rest,rfl,stuck⟩ := ih _ (length ▸ first?_shorter read) after rfl
      exact ⟨c :: text,rest,by simp [first?_eq_some_iff.mp read,encode],stuck⟩

theorem decode_eq_ok_iff {bytes : List UInt8} {text : List Char} :
    decode bytes = .ok text ↔ bytes = encode text := by
  constructor
  · intro decoded
    obtain ⟨text',rest,rfl,stuck⟩ := exists_stuck bytes
    rw [decode_encode_append text' stuck] at decoded
    split at decoded
    · rename_i done
      cases decoded
      rw [List.isEmpty_iff.mp done,List.append_nil]
    · cases decoded
  · rintro rfl
    have stuck : first? [] = none := rfl
    simpa using decode_encode_append text stuck

theorem encode_append (text more : List Char) : encode (text ++ more) = encode text ++ encode more := by
  simp [encode]

-- Two ways to part the same bytes agree on the text in front.
theorem encode_append_inj {text more : List Char} {rest after : List UInt8} (stuck : first? rest = none)
    (same : encode text ++ after = encode more ++ rest) :
    ∃ others, more = text ++ others ∧ after = encode others ++ rest := by
  induction text generalizing more with
  | nil => exact ⟨more,rfl,same⟩
  | cons c text ih =>
    cases more with
    | nil =>
      have read := first?_encode c text after
      rw [same,encode,List.flatMap_nil,List.nil_append,stuck] at read
      cases read
    | cons d more =>
      have read := first?_encode c text after
      rw [same,first?_encode] at read
      obtain ⟨rfl,later⟩ : d = c ∧ encode more ++ rest = encode text ++ after := by simpa using read
      obtain ⟨others,rfl,behind⟩ := ih later.symm
      exact ⟨others,rfl,behind⟩

theorem encode_length_le {other text : List Char} {rest : List UInt8} (stuck : first? rest = none)
    (within : encode other <+: encode text ++ rest) : (encode other).length ≤ (encode text).length := by
  obtain ⟨after,same⟩ := within
  obtain ⟨others,rfl,_⟩ := encode_append_inj stuck same
  rw [encode_append,List.length_append]
  exact Nat.le_add_right _ _

end Utf8

open Utf8

structure EncodedUpTo (bytes : List UInt8) (p : Nat) : Prop where
  within : p ≤ bytes.length
  encoded : ∃ text, bytes.take p = encode text
  longest : ∀ q ≤ bytes.length, (∃ text, bytes.take q = encode text) → q ≤ p

theorem EncodedUpTo.of_stuck {text : List Char} {rest : List UInt8} (stuck : first? rest = none) :
    EncodedUpTo (encode text ++ rest) (encode text).length where
  within := by simp
  encoded := ⟨text,List.take_left⟩
  longest := by
    rintro q within ⟨other,encoded⟩
    have shorter := encode_length_le stuck (encoded ▸ List.take_prefix q _)
    rwa [← encoded,List.length_take_of_le within] at shorter

structure LastLine (bytes line : List UInt8) : Prop where
  single : newline ∉ line
  begins : line = bytes ∨ newline :: line <:+ bytes

theorem LastLine.append {bytes line : List UInt8} (last : LastLine bytes line) {b : UInt8}
    (more : b ≠ newline) : LastLine (bytes ++ [b]) (line ++ [b]) where
  single := by simp [last.single,Ne.symm more]
  begins := by
    rcases last.begins with rfl | ⟨before,rfl⟩
    · exact .inl rfl
    · exact .inr ⟨before,by simp⟩

theorem Position.behind_lastLine (bytes : List UInt8) :
    ∃ line, LastLine bytes line ∧ Position.behind bytes = ⟨bytes.count newline,line.length⟩ := by
  induction bytes using List.reverseRecOn with
  | nil => exact ⟨[],⟨List.not_mem_nil,.inl rfl⟩,rfl⟩
  | append_singleton bytes b ih =>
    by_cases ends : b = newline
    · exact ⟨[],⟨List.not_mem_nil,.inr ⟨bytes,by rw [ends]⟩⟩,by simp [Position.behind,ends]⟩
    · obtain ⟨line,last,place⟩ := ih
      have column : (bytes.reverse.takeWhile (· ≠ newline)).length = line.length :=
        congrArg Position.column place
      refine ⟨line ++ [b],last.append ends,?_⟩
      simp only [Position.behind,List.reverse_append,List.reverse_singleton,List.singleton_append]
      rw [List.takeWhile_cons_of_pos (by simpa using ends),List.length_cons,column]
      simp [ends]

theorem decodeSource_eq_ok_iff {bytes : List UInt8} {text : List Char} :
    decodeSource bytes = .ok text ↔ bytes = encode text := by
  rw [← decode_eq_ok_iff]
  unfold decodeSource
  cases decode bytes <;> simp

theorem decodeSource_of_stuck {text : List Char} {b : UInt8} {rest : List UInt8}
    (stuck : first? (b :: rest) = none) :
    decodeSource (encode text ++ b :: rest) = .error ⟨.behind (encode text),b⟩ := by
  have failed := decode_encode_append text stuck
  simp only [List.isEmpty_cons,Bool.false_eq_true,if_false] at failed
  simp [decodeSource,failed]

-- Names the first byte behind the longest beginning that encodes a text. Messages count rows
-- and columns from one, and columns are bytes.
structure Blames (bytes : List UInt8) (cause : InvalidByte) : Prop where
  place : ∃ p line, EncodedUpTo bytes p ∧ bytes[p]? = some cause.byte ∧
    LastLine (bytes.take p) line ∧ cause.position = ⟨(bytes.take p).count newline,line.length⟩
  message : ∀ file, cause.message file =
    s!"{file}:{cause.position.row+1}:{cause.position.column+1}: invalid UTF-8 byte 0x" ++
      String.ofList [Nat.digitChar (cause.byte.toNat/16),Nat.digitChar (cause.byte.toNat % 16)]

theorem hex_byte (b : UInt8) :
    Text.hex 2 b.toNat = [Nat.digitChar (b.toNat/16),Nat.digitChar (b.toNat % 16)] := by
  have small := b.toNat_lt
  have high : b.toNat/16 % 16 = b.toNat/16 := by omega
  simp [Text.hex,List.range_succ,high]

theorem Blames.of_stuck {text : List Char} {b : UInt8} {rest : List UInt8}
    (stuck : first? (b :: rest) = none) :
    Blames (encode text ++ b :: rest) ⟨.behind (encode text),b⟩ where
  place := by
    obtain ⟨line,last,position⟩ := Position.behind_lastLine (encode text)
    refine ⟨(encode text).length,line,.of_stuck stuck,by simp,?_⟩
    rw [List.take_left]
    exact ⟨last,position⟩
  message := by
    intro file
    simp only [InvalidByte.message,Position.inFile,hex_byte]
    rfl

theorem exists_blames {bytes : List UInt8} (undecoded : ∀ text, bytes ≠ encode text) :
    ∃ cause, Blames bytes cause ∧ decodeSource bytes = .error cause := by
  obtain ⟨text,rest,rfl,stuck⟩ := exists_stuck bytes
  cases rest with
  | nil => exact (undecoded text (List.append_nil _)).elim
  | cons b rest => exact ⟨_,.of_stuck stuck,decodeSource_of_stuck stuck⟩

theorem Source.program_of_text (text : List Char) :
    (Source.text text).program = (parse text).mapError .parse := by
  simp only [Source.program,Source.parser,Source.characters,Except.map,parse]
  cases Parser.program (.start text) <;> rfl

structure DecodesExactly (bytes : List UInt8) : Prop where
  decoded : ∀ text, decodeSource bytes = .ok text ↔ bytes = encode text
  undecoded : (∀ text, bytes ≠ encode text) → ∃ cause, Blames bytes cause ∧
    decodeSource bytes = .error cause ∧ (Source.bytes bytes).cursor = .error cause ∧
    (Source.bytes bytes).program = .error (.invalidByte cause)
  read : ∀ text, bytes = encode text → (Source.bytes bytes).cursor = .ok (.start text) ∧
    (Source.bytes bytes).program = (parse text).mapError .parse

theorem decodes_exactly (bytes : List UInt8) : DecodesExactly bytes where
  decoded := fun _ => decodeSource_eq_ok_iff
  undecoded := by
    intro undecoded
    obtain ⟨cause,blames,failed⟩ := exists_blames undecoded
    refine ⟨cause,blames,failed,?_,?_⟩
    · simp [Source.cursor,Source.characters,failed,Except.map]
    · simp [Source.program,Source.parser,Source.characters,failed,Except.map]
  read := by
    intro text encoded
    have decoded := decodeSource_eq_ok_iff.mpr encoded
    rw [← Source.program_of_text]
    simp [Source.cursor,Source.program,Source.parser,Source.characters,decoded,Except.map]

example : decodeSource [0x61,newline,0xc3,0xa9,0xed,0xa0,0x80] = .error ⟨⟨1,2⟩,0xed⟩ := by
  decide +kernel

end TapeMachine
