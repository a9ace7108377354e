import Athenz.Lib.BigEndian
import Athenz.Lib.Result
import Mathlib.Algebra.Group.Int.Defs

namespace Athenz.Crypto
open Lib Lib.Text Lib.Result Lib.BigEndian
set_option autoImplicit true

section Integers

abbrev Byte := BitVec 8

inductive Failure where
  | crypto (message : Str)
  | outOfBounds
  | classCast
deriving DecidableEq

/-- The bits of a two's complement representation without its sign. -/
def bitLength (n : Int) : Nat :=
  let magnitude := if 0 ≤ n then n.toNat else (-n - 1).toNat
  if magnitude = 0 then 0 else magnitude.log2 + 1

/-- The shortest two's complement representation. -/
def toByteArray (n : Int) : List Byte :=
  let length := bitLength n / 8 + 1
  bigEndian length (n % 256 ^ length).toNat

/-- A copy between arrays, within the bounds of both. -/
def arraycopy (src : List Byte) (srcPos : Nat) (dest : List Byte) (destPos : Int) (length : Nat) :
    Except Failure (List Byte) :=
  if destPos < 0 ∨ srcPos + length > src.length ∨ destPos + length > dest.length then
    .error .outOfBounds
  else
    .ok (dest.take destPos.toNat ++ (src.drop srcPos).take length ++
      dest.drop (destPos.toNat + length))

def fill (dest : List Byte) (fromIndex toIndex : Nat) (val : Byte) : List Byte :=
  dest.take fromIndex ++ List.replicate (toIndex - fromIndex) val ++ dest.drop toIndex

def toIntegerBytes (bigInt : Int) (skipSignBit : Bool) : Except Failure (List Byte) :=
  if !skipSignBit then .ok (toByteArray bigInt)
  else
    let bitlen := ((bitLength bigInt + 7) >>> 3) <<< 3
    let bigBytes := toByteArray bigInt
    if bitLength bigInt % 8 ≠ 0 ∧ bitLength bigInt / 8 + 1 = bitlen / 8 then .ok bigBytes
    else
      let startSrc := if bitLength bigInt % 8 = 0 then 1 else 0
      let len := if bitLength bigInt % 8 = 0 then bigBytes.length - 1 else bigBytes.length
      let startDst : Int := (bitlen / 8 : Nat) - (len : Int)
      let resizedBytes := List.replicate (bitlen / 8) 0
      arraycopy bigBytes startSrc resizedBytes startDst len

def safeCopyByteArray (src dest : List Byte) (destPos length : Nat) :
    Except Failure (List Byte) :=
  let idxDestPos : Int := (destPos + length : Nat) - (src.length : Int)
  let dest := if src.length < length then fill dest destPos idxDestPos.toNat 0 else dest
  arraycopy src 0 dest idxDestPos src.length

end Integers

section Conversions

/-- An element of a DER sequence. -/
inductive Asn1Object where
  | integer (n : Int)
  | other (encoded : List Byte)
deriving DecidableEq

/-- The DER library: the encoding of a sequence of integers, and the reading of a sequence. -/
structure Der where
  getEncoded : List Int → Option (List Byte)
  getInstance : List Byte → Option (List Asn1Object)

def getSignatureExpectedSize (algorithm : Str) : Nat :=
  if algorithm = "SHA256" then 32
  else if algorithm = "SHA384" then 48
  else if algorithm = "SHA512" then 66
  else 0

variable (der : Der)

def convertSignatureFromP1363ToDERFormat (signature : List Byte) (digestAlgorithm : Str) :
    Except Failure (List Byte) := do
  let size := getSignatureExpectedSize digestAlgorithm
  refuse (size = 0) (.crypto "unknown signature size")
  refuse (signature.length ≠ 2 * size) (.crypto "invalid signature size")
  let r := value (signature.take size)
  let s := value ((signature.drop size).take size)
  require (der.getEncoded [(r : Int), (s : Int)]) (.crypto "unable to convert to der format")

def getValue : Asn1Object → Except Failure Int
  | .integer n => .ok n
  | .other _ => .error .classCast

def convertSignatureFromDERToP1363Format (signature : List Byte) (digestAlgorithm : Str) :
    Except Failure (List Byte) := do
  let size := getSignatureExpectedSize digestAlgorithm
  refuse (size = 0) (.crypto "unknown signature size")
  let seq ← require (der.getInstance signature) (.crypto "failed to construct asn1 sequence")
  match seq with
  | [first, second] =>
    let r ← getValue first
    let s ← getValue second
    let out := List.replicate (2 * size) 0
    let out ← safeCopyByteArray (← toIntegerBytes r true) out 0 size
    safeCopyByteArray (← toIntegerBytes s true) out size size
  | _ => throw (.crypto "invalid asn1sequence size")

end Conversions

section Widths

/-- The bytes that a number takes without its sign bit. -/
def width (n : Int) : Nat := (bitLength n + 7) / 8

theorem bitLength_le_iff {n : Int} (hn : 0 ≤ n) (k : Nat) : bitLength n ≤ k ↔ n < 2 ^ k := by
  obtain ⟨m, rfl⟩ := Int.eq_ofNat_of_zero_le hn
  have hcast : ((m : Int) < 2 ^ k) ↔ m < 2 ^ k := by exact_mod_cast Iff.rfl
  rw [hcast, bitLength, if_pos hn, Int.toNat_natCast]
  split
  · rename_i hzero
    rw [hzero]
    exact iff_of_true (Nat.zero_le k) (Nat.two_pow_pos k)
  · rename_i hne
    exact Nat.log2_lt hne

theorem width_le_iff {n : Int} (hn : 0 ≤ n) (k : Nat) : width n ≤ k ↔ n < 256 ^ k := by
  have hpow : (256 : Int) ^ k = 2 ^ (8 * k) := by rw [Int.pow_mul]; rfl
  rw [hpow, ← bitLength_le_iff hn, width]
  omega

/-- A number within its shortest two's complement representation. -/
def low (n : Int) : Nat := (n % 256 ^ (bitLength n / 8 + 1)).toNat

theorem low_eq {n : Int} (hn : 0 ≤ n) : low n = n.toNat := by
  have hfits : n < 256 ^ (bitLength n / 8 + 1) := (width_le_iff hn _).1 (by rw [width]; omega)
  rw [low, Int.emod_eq_of_lt hn hfits]

theorem arraycopy_eq (src dest : List Byte) (srcPos destPos length : Nat)
    (hsrc : srcPos + length ≤ src.length)
    (hdest : destPos + length ≤ dest.length) :
    arraycopy src srcPos dest (destPos : Nat) length = .ok (dest.take destPos ++
      (src.drop srcPos).take length ++ dest.drop (destPos + length)) := by
  rw [arraycopy, if_neg (by omega), Int.toNat_natCast]

/-- The bytes of a number without its sign bit. -/
theorem toIntegerBytes_eq (n : Int) :
    toIntegerBytes n true = .ok (bigEndian (width n) (low n)) := by
  have hround : ((bitLength n + 7) >>> 3) <<< 3 / 8 = width n := by
    rw [Nat.shiftRight_eq_div_pow, Nat.shiftLeft_eq, width]
    omega
  have hlength : (toByteArray n).length = bitLength n / 8 + 1 := length_bigEndian _ _
  unfold toIntegerBytes
  rw [if_neg (by decide)]
  dsimp only
  rw [hround]
  by_cases haligned : bitLength n % 8 = 0
  · have hwidth : width n = bitLength n / 8 := by
      rw [width]
      omega
    have hone : bitLength n / 8 + 1 = 1 + width n := by omega
    rw [if_neg (fun h => h.1 haligned), if_pos haligned, if_pos haligned, hlength, Nat.add_sub_cancel,
      ← hwidth, Int.sub_self]
    have hcopy := arraycopy_eq (toByteArray n) (List.replicate (width n) 0) 1 0 (width n)
      (by omega)
      (by rw [List.length_replicate]; omega)
    rw [Int.natCast_zero] at hcopy
    have hnone : (List.replicate (width n) (0 : Byte)).drop (width n) = [] :=
      List.drop_eq_nil_of_le (by rw [List.length_replicate])
    rw [hcopy, List.take_zero, List.nil_append, Nat.zero_add, hnone, List.append_nil, toByteArray]
    rw [hone, drop_bigEndian, List.take_of_length_le (by rw [length_bigEndian]), low, hone]
  · have hwidth : width n = bitLength n / 8 + 1 := by
      rw [width]
      omega
    rw [if_pos ⟨haligned, hwidth.symm⟩, toByteArray, low, hwidth]

end Widths

section Copies

/-- A number that fits is copied behind zero bytes. -/
theorem safeCopyByteArray_fits {src dest : List Byte} (hsrc : src.length ≤ length)
    (hdest : destPos + length ≤ dest.length) :
    safeCopyByteArray src dest destPos length = .ok (dest.take destPos ++
      (List.replicate (length - src.length) 0 ++ src) ++ dest.drop (destPos + length)) := by
  have hidx : ((destPos + length : Nat) : Int) - (src.length : Int) =
      ((destPos + (length - src.length) : Nat) : Int) := by omega
  unfold safeCopyByteArray
  dsimp only
  rw [hidx, Int.toNat_natCast]
  split
  · have hfilled : fill dest destPos (destPos + (length - src.length)) 0 =
        (dest.take destPos ++ List.replicate (length - src.length) 0) ++
          dest.drop (destPos + (length - src.length)) := by
      rw [fill, Nat.add_sub_cancel_left]
    have hfront : (dest.take destPos ++ List.replicate (length - src.length) (0 : Byte)).length =
        destPos + (length - src.length) := by
      rw [List.length_append, List.length_take, List.length_replicate]
      omega
    have hend : destPos + (length - src.length) + src.length = destPos + length := by omega
    have htail : ((dest.take destPos ++ List.replicate (length - src.length) (0 : Byte)) ++
        dest.drop (destPos + (length - src.length))).drop (destPos + length) =
          dest.drop (destPos + length) := by
      rw [← hend, ← hfront, List.drop_length_add_append, List.drop_drop, hfront]
    rw [hfilled, arraycopy_eq _ _ _ _ _ (by omega) (by rw [List.length_append, List.length_drop]; omega),
      List.take_left' hfront, List.drop_zero, List.take_of_length_le (Nat.le_refl _), hend, htail,
      List.append_assoc (dest.take destPos)]
  · have hfull : length - src.length = 0 := by omega
    have hend : destPos + src.length = destPos + length := by omega
    rw [hfull, Nat.add_zero, arraycopy_eq _ _ _ _ _ (by omega) (by omega), List.drop_zero,
      List.take_of_length_le (Nat.le_refl _), List.replicate_zero, List.nil_append, hend]

/-- A wider number reaches in front of its place. -/
theorem safeCopyByteArray_wide {src dest : List Byte} (hsrc : length < src.length)
    (hroom : src.length ≤ destPos + length) (hdest : destPos + length ≤ dest.length) :
    safeCopyByteArray src dest destPos length = .ok (dest.take (destPos + length - src.length) ++
      src ++ dest.drop (destPos + length)) := by
  have hidx : ((destPos + length : Nat) : Int) - (src.length : Int) =
      ((destPos + length - src.length : Nat) : Int) := by omega
  have hend : destPos + length - src.length + src.length = destPos + length := by omega
  unfold safeCopyByteArray
  dsimp only
  rw [hidx, if_neg (by omega), arraycopy_eq _ _ _ _ _ (by omega) (by omega), List.drop_zero,
    List.take_of_length_le (Nat.le_refl _), hend]

theorem safeCopyByteArray_error {src dest : List Byte} (hsrc : destPos + length < src.length) :
    safeCopyByteArray src dest destPos length = .error .outOfBounds := by
  unfold safeCopyByteArray
  dsimp only
  rw [arraycopy, if_pos (.inl (by omega))]

end Copies

section Results

variable {der : Der} {sequence : List Byte}

/-- Two numbers in the bytes of a signature. -/
def Exact (size : Nat) (r s : Int) (out : List Byte) : Prop :=
  0 ≤ r ∧ r < 256 ^ size ∧ 0 ≤ s ∧ s < 256 ^ size ∧
    out = bigEndian size r.toNat ++ bigEndian size s.toNat

/-- The library reads the two integers that it has encoded. -/
def Der.Inverts (der : Der) (r s : Int) : Prop :=
  ∃ encoded, der.getEncoded [r, s] = some encoded ∧
    der.getInstance encoded = some [.integer r, .integer s]

/-- A number is too wide to be copied at all, or both are positive and the second one fits. -/
def Convertible (size : Nat) (r s : Int) : Prop :=
  size < width r ∨ 2 * size < width s ∨ 0 ≤ r ∧ 0 ≤ s ∧ width s ≤ size

theorem bigEndian_padded {n : Int} (hn : 0 ≤ n) (hwidth : width n ≤ size) :
    List.replicate (size - width n) 0 ++ bigEndian (width n) (low n) = bigEndian size n.toNat := by
  have hfits : n.toNat < 256 ^ width n := by
    have hlt := (width_le_iff hn (width n)).1 (Nat.le_refl _)
    rw [Int.toNat_lt hn, Int.natCast_pow]
    exact hlt
  rw [low_eq hn, ← bigEndian_add _ _ hfits, Nat.sub_add_cancel hwidth]

/-- The conversion copies the bytes of both numbers. -/
theorem convertDER_eq (hsize : getSignatureExpectedSize digest ≠ 0)
    (hsequence : der.getInstance sequence = some [.integer r, .integer s]) :
    convertSignatureFromDERToP1363Format der sequence digest =
      (safeCopyByteArray (bigEndian (width r) (low r))
        (List.replicate (2 * getSignatureExpectedSize digest) 0) 0
          (getSignatureExpectedSize digest)).bind fun out =>
        safeCopyByteArray (bigEndian (width s) (low s)) out (getSignatureExpectedSize digest)
          (getSignatureExpectedSize digest) := by
  unfold convertSignatureFromDERToP1363Format
  simp only [refuse, if_neg hsize, require, hsequence, getValue, toIntegerBytes_eq, bind, Except.bind]

theorem convertDER_wide (hsize : getSignatureExpectedSize digest ≠ 0)
    (hsequence : der.getInstance sequence = some [.integer r, .integer s])
    (hwide : getSignatureExpectedSize digest < width r) :
    convertSignatureFromDERToP1363Format der sequence digest = .error .outOfBounds := by
  rw [convertDER_eq hsize hsequence,
    safeCopyByteArray_error (by rw [length_bigEndian]; omega)]
  rfl

theorem firstCopy_eq (hfits : width r ≤ size) :
    safeCopyByteArray (bigEndian (width r) (low r)) (List.replicate (2 * size) 0) 0 size =
      .ok ((List.replicate (size - width r) 0 ++ bigEndian (width r) (low r)) ++
        List.replicate size 0) := by
  have hhalf : 2 * size - size = size := by omega
  rw [safeCopyByteArray_fits (by rw [length_bigEndian]; exact hfits)
    (by rw [List.length_replicate]; omega), length_bigEndian, List.take_zero, List.nil_append,
    Nat.zero_add, List.drop_replicate, hhalf]

/-- Two positive numbers that fit are converted to their bytes. -/
theorem convertDER_fits (hsize : getSignatureExpectedSize digest ≠ 0)
    (hsequence : der.getInstance sequence = some [.integer r, .integer s]) (hr : 0 ≤ r) (hs : 0 ≤ s)
    (hfits : width r ≤ getSignatureExpectedSize digest)
    (hfits' : width s ≤ getSignatureExpectedSize digest) :
    convertSignatureFromDERToP1363Format der sequence digest =
      .ok (bigEndian (getSignatureExpectedSize digest) r.toNat ++
        bigEndian (getSignatureExpectedSize digest) s.toNat) := by
  generalize hn : getSignatureExpectedSize digest = n at *
  have hlength : (bigEndian n r.toNat).length = n := length_bigEndian _ _
  have hcopied : convertSignatureFromDERToP1363Format der sequence digest =
      (safeCopyByteArray (bigEndian (width r) (low r)) (List.replicate (2 * n) 0) 0 n).bind fun out =>
        safeCopyByteArray (bigEndian (width s) (low s)) out n n := by
    rw [convertDER_eq (by rw [hn]; exact hsize) hsequence, hn]
  rw [hcopied, firstCopy_eq hfits, bigEndian_padded hr hfits]
  change safeCopyByteArray (bigEndian (width s) (low s))
    (bigEndian n r.toNat ++ List.replicate n 0) n n = _
  rw [safeCopyByteArray_fits (by rw [length_bigEndian]; exact hfits')
    (by rw [List.length_append, List.length_replicate]; omega), length_bigEndian,
    List.take_left' hlength, bigEndian_padded hs hfits',
    List.drop_eq_nil_of_le (by rw [List.length_append, List.length_replicate]; omega),
    List.append_nil]

/-- A second number of up to twice the bytes is copied, over the first one. -/
theorem convertDER_returns (hsize : getSignatureExpectedSize digest ≠ 0)
    (hsequence : der.getInstance sequence = some [.integer r, .integer s])
    (hfits : width r ≤ getSignatureExpectedSize digest)
    (hfits' : width s ≤ 2 * getSignatureExpectedSize digest) :
    ∃ out, convertSignatureFromDERToP1363Format der sequence digest = .ok out := by
  rw [convertDER_eq hsize hsequence, firstCopy_eq hfits]
  generalize getSignatureExpectedSize digest = n at *
  have hlength : n + n ≤ ((List.replicate (n - width r) 0 ++ bigEndian (width r) (low r)) ++
      List.replicate n (0 : Byte)).length := by
    rw [List.length_append, List.length_append, List.length_replicate, length_bigEndian,
      List.length_replicate]
    omega
  by_cases hwide : width s ≤ n
  · exact ⟨_, safeCopyByteArray_fits (by rw [length_bigEndian]; exact hwide) hlength⟩
  · exact ⟨_, safeCopyByteArray_wide (by rw [length_bigEndian]; omega)
      (by rw [length_bigEndian]; omega) hlength⟩

theorem convertDER_too_wide (hsize : getSignatureExpectedSize digest ≠ 0)
    (hsequence : der.getInstance sequence = some [.integer r, .integer s])
    (hfits : width r ≤ getSignatureExpectedSize digest)
    (hwide : 2 * getSignatureExpectedSize digest < width s) :
    convertSignatureFromDERToP1363Format der sequence digest = .error .outOfBounds := by
  rw [convertDER_eq hsize hsequence, firstCopy_eq hfits]
  exact safeCopyByteArray_error (by rw [length_bigEndian]; omega)

/-- What is converted is exact when the numbers are convertible. -/
theorem convertDER_exact_iff (hsize : getSignatureExpectedSize digest ≠ 0)
    (hsequence : der.getInstance sequence = some [.integer r, .integer s]) :
    (∀ out, convertSignatureFromDERToP1363Format der sequence digest = .ok out →
      Exact (getSignatureExpectedSize digest) r s out) ↔
    Convertible (getSignatureExpectedSize digest) r s := by
  constructor
  · intro h
    by_cases hr : getSignatureExpectedSize digest < width r
    · exact .inl hr
    by_cases hs : 2 * getSignatureExpectedSize digest < width s
    · exact .inr (.inl hs)
    obtain ⟨out, hout⟩ := convertDER_returns hsize hsequence (by omega) (by omega)
    obtain ⟨hr', _, hs', hfits, _⟩ := h out hout
    exact .inr (.inr ⟨hr', hs', (width_le_iff hs' _).2 hfits⟩)
  · intro h out hout
    by_cases hr : getSignatureExpectedSize digest < width r
    · rw [convertDER_wide hsize hsequence hr] at hout
      cases hout
    by_cases hs : 2 * getSignatureExpectedSize digest < width s
    · rw [convertDER_too_wide hsize hsequence (by omega) hs] at hout
      cases hout
    rcases h with hwide | hwide | ⟨hr', hs', hfits⟩
    · exact absurd hwide hr
    · exact absurd hwide hs
    · rw [convertDER_fits hsize hsequence hr' hs' (by omega) hfits] at hout
      cases hout
      exact ⟨hr', (width_le_iff hr' _).1 (by omega), hs', (width_le_iff hs' _).1 hfits, rfl⟩

theorem width_value_le (bytes : List Byte) : width (value bytes : Int) ≤ bytes.length := by
  apply (width_le_iff (Int.natCast_nonneg _) _).2
  have hlt := Int.ofNat_lt.2 (value_lt bytes)
  rw [Int.natCast_pow] at hlt
  exact hlt

/-- A signature comes back from its DER form. -/
theorem convertDER_convertP1363 (hsize : getSignatureExpectedSize digest ≠ 0)
    (hlength : signature.length = 2 * getSignatureExpectedSize digest)
    (hder : der.Inverts (value (signature.take (getSignatureExpectedSize digest)))
      (value (signature.drop (getSignatureExpectedSize digest)))) :
    ∃ encoded, convertSignatureFromP1363ToDERFormat der signature digest = .ok encoded ∧
      convertSignatureFromDERToP1363Format der encoded digest = .ok signature := by
  obtain ⟨encoded, hencoded, hdecoded⟩ := hder
  have hfirst := width_value_le (signature.take (getSignatureExpectedSize digest))
  have hsecond := width_value_le (signature.drop (getSignatureExpectedSize digest))
  have hfront : (signature.take (getSignatureExpectedSize digest)).length =
      getSignatureExpectedSize digest := by
    rw [List.length_take]
    omega
  have hback : (signature.drop (getSignatureExpectedSize digest)).length =
      getSignatureExpectedSize digest := by
    rw [List.length_drop]
    omega
  have hall : (signature.drop (getSignatureExpectedSize digest)).take
      (getSignatureExpectedSize digest) = signature.drop (getSignatureExpectedSize digest) :=
    List.take_of_length_le (by omega)
  refine ⟨encoded, ?_, ?_⟩
  · unfold convertSignatureFromP1363ToDERFormat
    dsimp only
    rw [hall, hencoded, refuse, if_neg hsize, refuse, if_neg (fun hne => hne hlength)]
    rfl
  · rw [convertDER_fits hsize hdecoded (Int.natCast_nonneg _) (Int.natCast_nonneg _) (by omega)
      (by omega), Int.toNat_natCast, Int.toNat_natCast]
    have hr := bigEndian_value (signature.take (getSignatureExpectedSize digest))
    have hs := bigEndian_value (signature.drop (getSignatureExpectedSize digest))
    rw [hfront] at hr
    rw [hback] at hs
    rw [hr, hs, List.take_append_drop]

/-- Signatures come back from their DER form, and a DER sequence is converted to the bytes of its
numbers or refused exactly when they are convertible. -/
theorem signature_formats (der : Der) (digestAlgorithm : Str) (signature sequence : List Byte)
    (r s : Int) (hsize : getSignatureExpectedSize digestAlgorithm ≠ 0)
    (hlength : signature.length = 2 * getSignatureExpectedSize digestAlgorithm)
    (hder : der.Inverts (value (signature.take (getSignatureExpectedSize digestAlgorithm)))
      (value (signature.drop (getSignatureExpectedSize digestAlgorithm))))
    (hsequence : der.getInstance sequence = some [.integer r, .integer s]) :
    (∃ encoded, convertSignatureFromP1363ToDERFormat der signature digestAlgorithm = .ok encoded ∧
      convertSignatureFromDERToP1363Format der encoded digestAlgorithm = .ok signature) ∧
    ((∀ out, convertSignatureFromDERToP1363Format der sequence digestAlgorithm = .ok out →
      Exact (getSignatureExpectedSize digestAlgorithm) r s out) ↔
        Convertible (getSignatureExpectedSize digestAlgorithm) r s) :=
  ⟨convertDER_convertP1363 hsize hlength hder, convertDER_exact_iff hsize hsequence⟩

end Results

section Sample

/-- The reading of integers of fewer than 128 bytes. -/
def readIntegers : Nat → List Byte → Option (List Asn1Object)
  | _, [] => some []
  | fuel + 1, 2#8 :: len :: rest =>
    if 0 < len.toNat ∧ len.toNat < 128 ∧ len.toNat ≤ rest.length then
      let content := rest.take len.toNat
      let n : Int := value content
      let signed := if n < 2 ^ (8 * len.toNat - 1) then n else n - 2 ^ (8 * len.toNat)
      (readIntegers fuel (rest.drop len.toNat)).map (.integer signed :: ·)
    else none
  | _, _ => none

/-- DER for sequences of fewer than 128 bytes. -/
def shortDer : Der where
  getEncoded numbers :=
    let body := numbers.flatMap fun n =>
      2#8 :: BitVec.ofNat 8 (toByteArray n).length :: toByteArray n
    if body.length < 128 then some (0x30#8 :: BitVec.ofNat 8 body.length :: body) else none
  getInstance
    | 0x30#8 :: len :: rest =>
      if len.toNat < 128 ∧ rest.length = len.toNat then readIntegers rest.length rest else none
    | _ => none

def shortSignature : List Byte :=
  List.replicate 31 0 ++ [200#8] ++ List.replicate 31 0 ++ [7#8]

/-- The sequence of two and 256 ^ 32. -/
def wideSequence : List Byte :=
  [0x30#8, 38#8, 2#8, 1#8, 2#8, 2#8, 33#8, 1#8] ++ List.replicate 32 0

theorem short_signature_converted :
    (∃ encoded, convertSignatureFromP1363ToDERFormat shortDer shortSignature "SHA256" = .ok encoded ∧
      convertSignatureFromDERToP1363Format shortDer encoded "SHA256" = .ok shortSignature) ∧
    ((∀ out, convertSignatureFromDERToP1363Format shortDer wideSequence "SHA256" = .ok out →
      Exact (getSignatureExpectedSize "SHA256") 2 (256 ^ 32) out) ↔
        Convertible (getSignatureExpectedSize "SHA256") 2 (256 ^ 32)) :=
  signature_formats shortDer "SHA256" shortSignature wideSequence 2 (256 ^ 32) (by decide +kernel)
    (by decide +kernel)
    ⟨[0x30#8, 7#8, 2#8, 2#8, 0#8, 200#8, 2#8, 1#8, 7#8], by decide +kernel, by decide +kernel⟩
    (by decide +kernel)

/-- A second number of one byte too many changes the first half. -/
theorem wide_number_overwrites :
    shortDer.getInstance wideSequence = some [.integer 2, .integer (256 ^ 32)] ∧
      convertSignatureFromDERToP1363Format shortDer wideSequence "SHA256" =
        .ok (List.replicate 31 0 ++ [1#8] ++ List.replicate 32 0) ∧
      bigEndian 32 2 = List.replicate 31 0 ++ [2#8] := by
  decide +kernel

end Sample

end Athenz.Crypto
