-- Strict UTF-8: no overlong forms, no surrogates, nothing above the last code point.
namespace TapeMachine.Utf8

def encode (text : List Char) : List UInt8 := text.flatMap String.utf8EncodeChar

-- What a leading byte announces: how many bytes continue the character, the bits that the
-- leading byte brings itself, and the least number that needs so many bytes.
structure Form where
  continuations : Nat
  bits : Nat
  least : Nat

def form? (b : UInt8) : Option Form :=
  if b < 0x80 then some ⟨0,b.toNat,0⟩
  else if b < 0xc0 then none
  else if b < 0xe0 then some ⟨1,b.toNat - 0xc0,0x80⟩
  else if b < 0xf0 then some ⟨2,b.toNat - 0xe0,0x800⟩
  else if b < 0xf8 then some ⟨3,b.toNat - 0xf0,0x10000⟩
  else none

def continued? : Nat → Nat → List UInt8 → Option (Nat × List UInt8)
  | 0,n,bytes => some (n,bytes)
  | _+1,_,[] => none
  | count+1,n,b :: bytes =>
    if 0x80 ≤ b ∧ b < 0xc0 then continued? count (n*0x40 + (b.toNat - 0x80)) bytes else none

def first? : List UInt8 → Option (Char × List UInt8)
  | [] => none
  | b :: bytes =>
    match form? b with
    | none => none
    | some form =>
      match continued? form.continuations form.bits bytes with
      | none => none
      | some (n,after) =>
        if form.least ≤ n ∧ n.isValidChar then some (Char.ofNat n,after) else none

theorem continued?_length {count n m : Nat} {bytes after : List UInt8}
    (read : continued? count n bytes = some (m,after)) : after.length+count = bytes.length := by
  induction count generalizing n bytes with
  | zero => simp only [continued?,Option.some.injEq,Prod.mk.injEq] at read; simp [read.2]
  | succ count ih =>
    cases bytes with
    | nil => simp [continued?] at read
    | cons b bytes =>
      simp only [continued?] at read
      split at read
      · have rest := ih read
        simp only [List.length_cons]
        omega
      · cases read

theorem first?_shorter {c : Char} {bytes after : List UInt8}
    (read : first? bytes = some (c,after)) : after.length < bytes.length := by
  unfold first? at read
  split at read
  · cases read
  · split at read
    · cases read
    · split at read
      · cases read
      · rename_i continued
        split at read
        · simp only [Option.some.injEq,Prod.mk.injEq] at read
          have length := continued?_length continued
          rw [read.2] at length
          simp only [List.length_cons]
          omega
        · cases read

-- Reads on behind the given characters, the nearest first. A failure gives back the bytes
-- that begin with no character.
def decodeFrom (before : List Char) (bytes : List UInt8) : Except (List UInt8) (List Char) :=
  match _ : first? bytes with
  | some (c,after) => decodeFrom (c :: before) after
  | none => if bytes.isEmpty then .ok before.reverse else .error bytes
termination_by bytes.length
decreasing_by exact first?_shorter (by assumption)

def decode (bytes : List UInt8) : Except (List UInt8) (List Char) := decodeFrom [] bytes

end TapeMachine.Utf8
