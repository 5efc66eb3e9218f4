import TapeMachine.Yaml.Fault
import TapeMachine.Text.Utf8

-- How much of a document can be read. Its bytes are decoded block by block, and its text is
-- handed on portion by portion as reading goes on; what is wrong with a portion shows only
-- when reading comes to it.
namespace TapeMachine.Yaml

-- The text up to the first bad portion, and what is wrong with that one. Without a fault the
-- text is the whole document.
structure Stretch where
  text : List Char
  fault : Option Fault

def blockSize : Nat := 8192
def portionSize : Nat := 4096

def uniformLines : List Char → List Char
  | '\r' :: '\n' :: rest => '\n' :: uniformLines rest
  | '\r' :: rest => '\n' :: uniformLines rest
  | c :: rest => c :: uniformLines rest
  | [] => []

def isPermitted (c : Char) : Bool :=
  c ∈ ['\t','\n','\r','\u0085'] || ' ' ≤ c && c ≤ '~' || '\u00a0' ≤ c && c ≤ '\ufffd' ||
    0x10000 ≤ c.toNat

structure Decoding where
  bytes : List UInt8
  begun : List UInt8
  returned : Bool
  ready : List Char
  latest : Nat × Nat

namespace Decoding

def start (bytes : List UInt8) : Decoding := ⟨bytes,[],false,[],(0,0)⟩

def isBeginning (bytes : List UInt8) : Bool :=
  [0x80,0xbf].any fun (b : UInt8) => (Utf8.first? (bytes ++ List.replicate 3 b)).isSome

def decoded (bytes : List UInt8) (isLast : Bool) : Except Fault (List Char × List UInt8) :=
  match Utf8.decode bytes with
  | .ok text => .ok (text,[])
  | .error undecoded =>
    if !isLast && isBeginning undecoded then
      match Utf8.decode (bytes.take (bytes.length - undecoded.length)) with
      | .ok text => .ok (text,undecoded)
      | .error _ => .error .undecodable
    else .error .undecodable

def blockFor (wanted : Nat) (decoding : Decoding) : Nat :=
  let (bytes,characters) := decoding.latest
  max blockSize (if characters < bytes ∧ 0 < characters then bytes*wanted/characters else wanted)

-- Decodes one more block. There is no block without bytes, but behind the last one a return
-- that was kept back comes out.
def next (wanted : Nat) (decoding : Decoding) : Except Fault Decoding := do
  let block := decoding.bytes.take (decoding.blockFor wanted)
  let isLast := block.isEmpty
  let (text,begun) ← decoded (decoding.begun ++ block) isLast
  let comesOut := decoding.returned && (isLast || !text.isEmpty)
  let text := if comesOut then '\r' :: text else text
  let keepsBack := !isLast && text.getLast? = some '\r'
  let ready := uniformLines (if keepsBack then text.dropLast else text)
  return { bytes := decoding.bytes.drop block.length, begun, ready,
           returned := keepsBack || decoding.returned && !comesOut,
           latest := (block.length,ready.length) }

def take (wanted : Nat) : Nat → Decoding → Except Fault (List Char × Decoding)
  | 0,decoding => .ok ([],decoding)
  | fuel+1,decoding =>
    let found := decoding.ready.take wanted
    let decoding := { decoding with ready := decoding.ready.drop wanted }
    if found.length = wanted then .ok (found,decoding)
    else do
      let missing := wanted - found.length
      let more ← decoding.next missing
      if decoding.bytes.isEmpty && more.ready.isEmpty then return (found,more)
      else
        let (others,after) ← more.take missing fuel
        return (found ++ others,after)

def portion (decoding : Decoding) : Except Fault (List Char × Decoding) :=
  decoding.take portionSize (decoding.bytes.length+2)

def stretch : Nat → Decoding → Stretch
  | 0,_ => ⟨[],none⟩
  | fuel+1,decoding =>
    match decoding.portion with
    | .error fault => ⟨[],some fault⟩
    | .ok (text,after) =>
      if text.isEmpty then ⟨[],none⟩
      else if text.all isPermitted then
        let others := after.stretch fuel
        ⟨text ++ others.text,others.fault⟩
      else ⟨[],some .malformed⟩

end Decoding

-- The first two portions are read together, before their characters are looked at.
def Stretch.ofBytes (bytes : List UInt8) : Stretch :=
  let first := do
    let (text,decoding) ← (Decoding.start bytes).portion
    let (more,decoding) ← decoding.portion
    return (text ++ more,decoding)
  match first with
  | .error fault => ⟨[],some fault⟩
  | .ok (text,decoding) =>
    if text.all isPermitted then
      let others := decoding.stretch (bytes.length+1)
      ⟨text ++ others.text,others.fault⟩
    else ⟨[],some .malformed⟩

end TapeMachine.Yaml
