import Athenz.Lib.Result
import Athenz.Lib.Text
import Mathlib.Algebra.Group.Int.Defs
import Mathlib.Algebra.Group.Nat.Defs

namespace Athenz.YBase64
open Lib Lib.Text Lib.Result
set_option autoImplicit true

section Tables

abbrev Byte := BitVec 8

/-- What stops an encoding or a decoding. -/
inductive Failure where
  | crypto (message : Str)
  | outOfBounds
  | negativeArraySize
deriving DecidableEq

def Y64_ARRAY : List Byte :=
  ['A', 'B', 'C', 'D', 'E', 'F', 'G', 'H', 'I', 'J', 'K', 'L', 'M', 'N', 'O', 'P',
    'Q', 'R', 'S', 'T', 'U', 'V', 'W', 'X', 'Y', 'Z', 'a', 'b', 'c', 'd', 'e', 'f',
    'g', 'h', 'i', 'j', 'k', 'l', 'm', 'n', 'o', 'p', 'q', 'r', 's', 't', 'u', 'v',
    'w', 'x', 'y', 'z', '0', '1', '2', '3', '4', '5', '6', '7', '8', '9', '.', '_'].map fun c =>
      BitVec.ofNat 8 c.toNat

/-- The character in the place of missing bytes. -/
def pad : Byte := BitVec.ofNat 8 '-'.toNat

def unrecognized (n : Nat) : List Byte := List.replicate n 0xee#8

def values (first count : Nat) : List Byte := (List.range' first count).map (BitVec.ofNat 8)

def Y64_DECODE_ARRAY : List Byte :=
  unrecognized 45 ++ [0xff#8, 62#8] ++ unrecognized 1 ++ values 52 10 ++ unrecognized 7 ++
    values 0 26 ++ unrecognized 4 ++ [63#8] ++ unrecognized 1 ++ values 26 26 ++ unrecognized 101

/-- The value of a character; bytes are signed. -/
def decodeByte (byte : Byte) : Byte :=
  let index := byte.toInt
  if index < 0 ∨ index ≥ Y64_DECODE_ARRAY.length then 0xee#8
  else Y64_DECODE_ARRAY.getD index.toNat 0xee#8

/-- The 32-bit value that an arithmetic result wraps around to. -/
def int (n : Int) : Int := n.bmod (2 ^ 32)

def y64decodeLen (len : Int) : Int := int (int ((int (len + 3)).tdiv 4 * 3) + 1)

def y64encodeLen (len : Int) : Int := int (int ((int (len + 2)).tdiv 3 * 4) + 1)

/-- A new array is as long as it is asked for. -/
def newArray (length : Int) : Except Failure Nat :=
  if length < 0 then .error .negativeArraySize else .ok length.toNat

/-- The next element of an array of the given length. -/
def store (capacity : Nat) (out : List Byte) (byte : Byte) : Except Failure (List Byte) :=
  if out.length < capacity then .ok (out ++ [byte]) else .error .outOfBounds

def storeAll (capacity : Nat) (out : List Byte) (bytes : List Byte) : Except Failure (List Byte) :=
  bytes.foldlM (store capacity) out

end Tables

section Encoding

/-- The character at an index that has been checked against the other table. -/
def character (i : Nat) : Except Failure Byte :=
  if i ≥ Y64_DECODE_ARRAY.length then .ok 0xee#8
  else require Y64_ARRAY[i]? .outOfBounds

def encode1 (a : Byte) : Except Failure Byte := character (a.toNat >>> 2)

def encode2 (a b : Byte) : Except Failure Byte :=
  character (((a.toNat <<< 4) &&& 0x30) + (b.toNat >>> 4))

def encode3 (b c : Byte) : Except Failure Byte :=
  character (((b.toNat <<< 2) &&& 0x3c) + (c.toNat >>> 6))

def encode4 (c : Byte) : Except Failure Byte := character (c.toNat &&& 0x3f)

def encodeLoop (capacity : Nat) : List Byte → List Byte → Except Failure (List Byte)
  | [], out => .ok out
  | [a], out => do
    storeAll capacity out [← encode1 a, ← encode2 a 0, pad, pad]
  | [a, b], out => do
    storeAll capacity out [← encode1 a, ← encode2 a b, ← encode3 b 0, pad]
  | a :: b :: c :: rest, out => do
    let out ← storeAll capacity out [← encode1 a, ← encode2 a b, ← encode3 b c, ← encode4 c]
    encodeLoop capacity rest out

def encode (inBytes : List Byte) : Except Failure (List Byte) :=
  if inBytes.length < 1 then .ok []
  else do
    let capacity ← newArray (y64encodeLen inBytes.length)
    encodeLoop capacity inBytes []

end Encoding

section Decoding

def decode1 (a b : Byte) : Byte := BitVec.ofInt 8 ((a.toInt <<< (2 : Nat)) + (b.toInt >>> (4 : Nat)))

def decode2 (b c : Byte) : Byte := BitVec.ofInt 8 ((b.toInt <<< (4 : Nat)) + (c.toInt >>> (2 : Nat)))

def decode3 (c d : Byte) : Byte := BitVec.ofInt 8 ((c.toInt <<< (6 : Nat)) + d.toInt)

def showNat (n : Nat) : Str := n.repr.toList

/-- The number of characters of a block that are not padding. -/
def blockLength (third fourth : Byte) : Nat :=
  4 - (if fourth = pad then 1 else 0) - (if third = pad then 1 else 0)

/-- The bytes of the block of four characters that starts at `i`. -/
def decodeBlock (i : Nat) (inA inB inC inD : Byte) : Except Failure (List Byte) := do
  refuse (inB = pad) (.crypto "Too Many pad characters ( this should never happen )")
  let a := decodeByte inA
  let b := decodeByte inB
  let c := decodeByte inC
  let d := decodeByte inD
  refuse (a = 0xee#8 ∨ b = 0xee#8 ∨ c = 0xee#8 ∨ d = 0xee#8)
    (.crypto ("Unrecognized characters in y64-encoded input starting at: ".toList ++ showNat i))
  if blockLength inC inD = 4 then
    return [decode1 a b, decode2 b c, decode3 c d]
  else if blockLength inC inD = 3 then
    refuse (c &&& 0x03#8 ≠ 0)
      (.crypto ("Unknown decode error c & 0x03 failed, c-pos: ".toList ++ showNat (i + 2)))
    return [decode1 a b, decode2 b c]
  else
    refuse (b &&& 0x0f#8 ≠ 0)
      (.crypto ("Invalid decode. b & 0x0f failed, b-pos: ".toList ++ showNat (i + 1)))
    return [decode1 a b]

def decodeLoop (capacity : Nat) (i : Nat) : List Byte → List Byte → Except Failure (List Byte)
  | [], out => .ok out
  | inA :: inB :: inC :: inD :: rest, out => do
    let bytes ← decodeBlock i inA inB inC inD
    let out ← storeAll capacity out bytes
    decodeLoop capacity (i + 4) rest out
  | _, _ => .error .outOfBounds

/-- The input without a final null byte that does not fill a block. -/
def trimmed (inBytes : List Byte) : List Byte :=
  if inBytes.length % 4 ≠ 0 ∧ inBytes.getLast? = some 0 then inBytes.dropLast else inBytes

def decode (inBytes : List Byte) : Except Failure (List Byte) := do
  let bytes := trimmed inBytes
  refuse (bytes.length % 4 ≠ 0)
    (.crypto ("String not padded ie, input string not modulo 4 len =  ".toList ++
      showNat bytes.length ++ " len%4= ".toList ++ showNat (bytes.length % 4)))
  let capacity ← newArray (y64decodeLen bytes.length)
  decodeLoop capacity 0 bytes []

end Decoding

end Athenz.YBase64
