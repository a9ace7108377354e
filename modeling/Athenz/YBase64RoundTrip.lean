import Athenz.YBase64

namespace Athenz.YBase64
open Lib Lib.Text Lib.Result
set_option autoImplicit true

section Characters

/-- The character of six bits. -/
def alphabet (n : Nat) : Byte := Y64_ARRAY.getD n 0

def sextet (byte : Byte) : Nat := Y64_ARRAY.idxOf byte

/-- What the two tables say of the character of six bits. -/
theorem alphabet_facts : ∀ n < 64, character n = .ok (alphabet n) ∧
    decodeByte (alphabet n) = BitVec.ofNat 8 n ∧ alphabet n ≠ pad ∧ alphabet n ∈ Y64_ARRAY ∧
    sextet (alphabet n) = n := by
  decide +kernel

theorem character_eq (hn : n < 64) : character n = .ok (alphabet n) :=
  (alphabet_facts n hn).1

theorem decodeByte_alphabet (hn : n < 64) : decodeByte (alphabet n) = BitVec.ofNat 8 n :=
  (alphabet_facts n hn).2.1

theorem alphabet_ne_pad (hn : n < 64) : alphabet n ≠ pad :=
  (alphabet_facts n hn).2.2.1

theorem alphabet_mem (hn : n < 64) : alphabet n ∈ Y64_ARRAY :=
  (alphabet_facts n hn).2.2.2.1

theorem mem_Y64_ARRAY : byte ∈ Y64_ARRAY ↔ ∃ n < 64, byte = alphabet n := by
  constructor
  · intro h
    obtain ⟨n, hn, rfl⟩ := List.getElem_of_mem h
    have hlength : Y64_ARRAY.length = 64 := rfl
    exact ⟨n, hlength ▸ hn, by rw [alphabet, List.getD_eq_getElem?_getD, List.getElem?_eq_getElem hn]; rfl⟩
  · rintro ⟨n, hn, rfl⟩
    exact alphabet_mem hn

/-- Every byte is a character of the alphabet, the padding or unrecognized. -/
theorem byte_cases (byte : Byte) :
    (∃ n < 64, byte = alphabet n) ∨ byte = pad ∨ decodeByte byte = 0xee#8 := by
  have hall : ∀ m < 256, decodeByte (BitVec.ofNat 8 m) = 0xee#8 ∨ BitVec.ofNat 8 m = pad ∨
      (decodeByte (BitVec.ofNat 8 m)).toNat < 64 ∧
        BitVec.ofNat 8 m = alphabet (decodeByte (BitVec.ofNat 8 m)).toNat := by
    decide +kernel
  have hbyte := hall byte.toNat byte.isLt
  rw [BitVec.ofNat_toNat, BitVec.setWidth_eq] at hbyte
  rcases hbyte with h | h | ⟨hn, h⟩
  · exact .inr (.inr h)
  · exact .inr (.inl h)
  · exact .inl ⟨_, hn, h⟩

theorem decodeByte_pad : decodeByte pad = 0xff#8 := by decide +kernel

theorem toNat_value (hn : n < 64) : (BitVec.ofNat 8 n).toNat = n := by
  rw [BitVec.toNat_ofNat]
  exact Nat.mod_eq_of_lt (by omega)

theorem value_ne_unrecognized (hn : n < 64) : BitVec.ofNat 8 n ≠ 0xee#8 := by
  intro h
  have hsame := congrArg BitVec.toNat h
  rw [toNat_value hn, BitVec.toNat_ofNat] at hsame
  omega

end Characters

section Shifts

theorem toInt_value (hn : n < 64) : (BitVec.ofNat 8 n).toInt = n := by
  rw [BitVec.toInt_eq_toNat_of_lt (by rw [toNat_value hn]; omega), toNat_value hn]

theorem decode1_value (hm : m < 64) (hn : n < 64) :
    decode1 (BitVec.ofNat 8 m) (BitVec.ofNat 8 n) = BitVec.ofNat 8 (4 * m + n / 16) := by
  rw [decode1, toInt_value hm, toInt_value hn, ← BitVec.ofInt_natCast]
  congr 1
  rw [Int.shiftLeft_eq, Int.shiftRight_eq_div_pow]
  omega

theorem decode2_value (hm : m < 64) (hn : n < 64) :
    decode2 (BitVec.ofNat 8 m) (BitVec.ofNat 8 n) = BitVec.ofNat 8 (16 * m + n / 4) := by
  rw [decode2, toInt_value hm, toInt_value hn, ← BitVec.ofInt_natCast]
  congr 1
  rw [Int.shiftLeft_eq, Int.shiftRight_eq_div_pow]
  omega

theorem decode3_value (hm : m < 64) (hn : n < 64) :
    decode3 (BitVec.ofNat 8 m) (BitVec.ofNat 8 n) = BitVec.ofNat 8 (64 * m + n) := by
  rw [decode3, toInt_value hm, toInt_value hn, ← BitVec.ofInt_natCast]
  congr 1
  rw [Int.shiftLeft_eq]
  omega

theorem ofNat_eq_of_mod (byte : Byte) (h : n % 256 = byte.toNat) : BitVec.ofNat 8 n = byte :=
  BitVec.eq_of_toNat_eq (by rw [BitVec.toNat_ofNat]; exact h)

/-- The low bits of a byte, moved up by a shift and cut by a mask. -/
theorem mask_facts : ∀ n < 256, (n <<< 4) &&& 0x30 = n % 4 * 16 ∧ (n <<< 2) &&& 0x3c = n % 16 * 4 := by
  decide +kernel

theorem encode1_eq (a : Byte) : encode1 a = .ok (alphabet (a.toNat / 4)) := by
  have ha := a.isLt
  rw [encode1, Nat.shiftRight_eq_div_pow]
  exact character_eq (by omega)

theorem encode2_eq (a b : Byte) :
    encode2 a b = .ok (alphabet (a.toNat % 4 * 16 + b.toNat / 16)) := by
  have hb := b.isLt
  rw [encode2, (mask_facts a.toNat a.isLt).1, Nat.shiftRight_eq_div_pow]
  exact character_eq (by omega)

theorem encode3_eq (b c : Byte) :
    encode3 b c = .ok (alphabet (b.toNat % 16 * 4 + c.toNat / 64)) := by
  have hc := c.isLt
  rw [encode3, (mask_facts b.toNat b.isLt).2, Nat.shiftRight_eq_div_pow]
  exact character_eq (by omega)

theorem encode4_eq (c : Byte) : encode4 c = .ok (alphabet (c.toNat % 64)) := by
  have hmask : c.toNat &&& 0x3f = c.toNat % 64 := Nat.and_two_pow_sub_one_eq_mod c.toNat 6
  rw [encode4, hmask]
  exact character_eq (by omega)

end Shifts

section Texts

theorem ok_bind (a : α) (f : α → Except ε β) : (Except.ok a >>= f) = f a := rfl

/-- The text of some bytes, three bytes in four characters. -/
def encodeText : List Byte → List Byte
  | [] => []
  | [a] => [alphabet (a.toNat / 4), alphabet (a.toNat % 4 * 16), pad, pad]
  | [a, b] => [alphabet (a.toNat / 4), alphabet (a.toNat % 4 * 16 + b.toNat / 16),
      alphabet (b.toNat % 16 * 4), pad]
  | a :: b :: c :: rest => alphabet (a.toNat / 4) :: alphabet (a.toNat % 4 * 16 + b.toNat / 16) ::
      alphabet (b.toNat % 16 * 4 + c.toNat / 64) :: alphabet (c.toNat % 64) :: encodeText rest

theorem length_encodeText (x : List Byte) : (encodeText x).length = (x.length + 2) / 3 * 4 := by
  induction x using encodeText.induct with
  | case1 => rfl
  | case2 a => simp only [encodeText, List.length_cons, List.length_nil]
  | case3 a b => simp only [encodeText, List.length_cons, List.length_nil]
  | case4 a b c rest ih =>
    simp only [encodeText, List.length_cons, ih]
    omega

theorem storeAll_eq (h : out.length + bytes.length ≤ capacity) :
    storeAll capacity out bytes = .ok (out ++ bytes) := by
  unfold storeAll
  induction bytes generalizing out with
  | nil => rw [List.append_nil]; rfl
  | cons byte bytes ih =>
    rw [List.length_cons] at h
    have hstore : store capacity out byte = .ok (out ++ [byte]) := if_pos (by omega)
    have hrest := @ih (out ++ [byte]) (by rw [List.length_append, List.length_singleton]; omega)
    rw [List.foldlM_cons, hstore, ok_bind, hrest, List.append_assoc, List.singleton_append]

theorem storeAll_ok {out : List Byte} (h : storeAll capacity out bytes = .ok stored) : stored = out ++ bytes := by
  unfold storeAll at h
  induction bytes generalizing out with
  | nil =>
    cases h
    exact (List.append_nil _).symm
  | cons byte bytes ih =>
    rw [List.foldlM_cons] at h
    obtain ⟨next, hnext, hrest⟩ := bind_eq_ok.1 h
    unfold store at hnext
    split at hnext
    · cases hnext
      rw [ih hrest, List.append_assoc, List.singleton_append]
    · cases hnext

theorem encodeLoop_ok {out : List Byte} (h : encodeLoop capacity x out = .ok y) : y = out ++ encodeText x := by
  induction x using encodeText.induct generalizing out with
  | case1 =>
    cases h
    exact (List.append_nil _).symm
  | case2 a =>
    rw [encodeLoop, encode1_eq, encode2_eq] at h
    exact storeAll_ok h
  | case3 a b =>
    rw [encodeLoop, encode1_eq, encode2_eq, encode3_eq] at h
    exact storeAll_ok h
  | case4 a b c rest ih =>
    rw [encodeLoop, encode1_eq, encode2_eq, encode3_eq, encode4_eq] at h
    simp only [ok_bind] at h
    obtain ⟨stored, hstored, hrest⟩ := bind_eq_ok.1 h
    rw [ih hrest, storeAll_ok hstored, List.append_assoc]
    rfl

theorem encodeLoop_eq (h : out.length + (encodeText x).length ≤ capacity) :
    encodeLoop capacity x out = .ok (out ++ encodeText x) := by
  induction x using encodeText.induct generalizing out with
  | case1 => rw [encodeText, List.append_nil]; rfl
  | case2 a =>
    rw [encodeLoop, encode1_eq, encode2_eq]
    exact storeAll_eq h
  | case3 a b =>
    rw [encodeLoop, encode1_eq, encode2_eq, encode3_eq]
    exact storeAll_eq h
  | case4 a b c rest ih =>
    rw [encodeText, List.length_cons, List.length_cons, List.length_cons, List.length_cons] at h
    rw [encodeLoop, encode1_eq, encode2_eq, encode3_eq, encode4_eq]
    simp only [ok_bind]
    rw [storeAll_eq (by simp only [List.length_cons, List.length_nil]; omega), ok_bind,
      ih (by rw [List.length_append]; simp only [List.length_cons, List.length_nil]; omega),
      List.append_assoc]
    rfl

end Texts

section Blocks

/-- The end of a block that is decoded: characters, and padding behind bits that are zero. -/
inductive ValidEnd : Byte → Byte → Byte → Prop
  | three : n < 64 → k < 64 → l < 64 → ValidEnd (alphabet n) (alphabet k) (alphabet l)
  | two : n < 64 → k < 64 → k % 4 = 0 → ValidEnd (alphabet n) (alphabet k) pad
  | one : n < 64 → n % 16 = 0 → ValidEnd (alphabet n) pad pad

/-- A block that is decoded; the padding may also stand for its first character. -/
def ValidBlock (a b c d : Byte) : Prop := (a ∈ Y64_ARRAY ∨ a = pad) ∧ ValidEnd b c d

/-- The bytes of a block. -/
def blockBytes (a b c d : Byte) : List Byte :=
  if d ≠ pad then [decode1 (decodeByte a) (decodeByte b), decode2 (decodeByte b) (decodeByte c),
    decode3 (decodeByte c) (decodeByte d)]
  else if c ≠ pad then
    [decode1 (decodeByte a) (decodeByte b), decode2 (decodeByte b) (decodeByte c)]
  else [decode1 (decodeByte a) (decodeByte b)]

theorem decodeByte_mem (h : byte ∈ Y64_ARRAY ∨ byte = pad) : decodeByte byte ≠ 0xee#8 := by
  rcases h with h | rfl
  · obtain ⟨n, hn, rfl⟩ := mem_Y64_ARRAY.1 h
    rw [decodeByte_alphabet hn]
    exact value_ne_unrecognized hn
  · rw [decodeByte_pad]
    decide

theorem lowBits : ∀ n < 64, (BitVec.ofNat 8 n &&& 0x03#8 ≠ 0 ↔ n % 4 ≠ 0) ∧
    (BitVec.ofNat 8 n &&& 0x0f#8 ≠ 0 ↔ n % 16 ≠ 0) := by
  decide +kernel

theorem lowBits_two (hn : n < 64) : BitVec.ofNat 8 n &&& 0x03#8 ≠ 0 ↔ n % 4 ≠ 0 :=
  (lowBits n hn).1

theorem lowBits_four (hn : n < 64) : BitVec.ofNat 8 n &&& 0x0f#8 ≠ 0 ↔ n % 16 ≠ 0 :=
  (lowBits n hn).2

theorem mem_or_pad (h : decodeByte byte ≠ 0xee#8) : byte ∈ Y64_ARRAY ∨ byte = pad := by
  rcases byte_cases byte with hmem | hpad | hnone
  · exact .inl (mem_Y64_ARRAY.2 hmem)
  · exact .inr hpad
  · exact absurd hnone h

theorem decodeBlock_ok_iff : decodeBlock i a b c d = .ok bytes ↔
    ValidBlock a b c d ∧ bytes = blockBytes a b c d := by
  simp only [decodeBlock, bind_eq_ok, refuse_eq_ok, exists_unit, not_or]
  constructor
  · rintro ⟨hb, ⟨ha, hb', hc, hd⟩, h⟩
    have ha := mem_or_pad ha
    obtain ⟨n, hn, rfl⟩ := mem_Y64_ARRAY.1 ((mem_or_pad hb').resolve_right hb)
    rcases mem_or_pad hc with hc | rfl <;> rcases mem_or_pad hd with hd | rfl
    · obtain ⟨k, hk, rfl⟩ := mem_Y64_ARRAY.1 hc
      obtain ⟨l, hl, rfl⟩ := mem_Y64_ARRAY.1 hd
      have hlength : blockLength (alphabet k) (alphabet l) = 4 := by
        rw [blockLength, if_neg (alphabet_ne_pad hk), if_neg (alphabet_ne_pad hl)]
      rw [if_pos hlength, pure_eq_ok] at h
      rw [blockBytes, if_pos (alphabet_ne_pad hl)]
      exact ⟨⟨ha, .three hn hk hl⟩, h.symm⟩
    · obtain ⟨k, hk, rfl⟩ := mem_Y64_ARRAY.1 hc
      have hlength : blockLength (alphabet k) pad = 3 := by
        rw [blockLength, if_neg (alphabet_ne_pad hk), if_pos rfl]
      rw [hlength, if_neg (by decide), if_pos rfl] at h
      simp only [bind_eq_ok, refuse_eq_ok, exists_unit, pure_eq_ok, decodeByte_alphabet hk,
        lowBits_two hk, Decidable.not_not] at h
      rw [blockBytes, if_neg (fun hne => hne rfl), if_pos (alphabet_ne_pad hk),
        decodeByte_alphabet hk]
      exact ⟨⟨ha, .two hn hk h.1⟩, h.2.symm⟩
    · obtain ⟨l, hl, rfl⟩ := mem_Y64_ARRAY.1 hd
      have hlength : blockLength pad (alphabet l) = 3 := by
        rw [blockLength, if_pos rfl, if_neg (alphabet_ne_pad hl)]
      rw [hlength, if_neg (by decide), if_pos rfl] at h
      obtain ⟨_, hrefuse, _⟩ := bind_eq_ok.1 h
      exact absurd (by rw [decodeByte_pad]; decide) (refuse_eq_ok.1 hrefuse)
    · have hlength : blockLength pad pad = 2 := by decide
      rw [hlength, if_neg (by decide), if_neg (by decide)] at h
      simp only [bind_eq_ok, refuse_eq_ok, exists_unit, pure_eq_ok, decodeByte_alphabet hn,
        lowBits_four hn, Decidable.not_not] at h
      rw [blockBytes, if_neg (fun hne => hne rfl), if_neg (fun hne => hne rfl),
        decodeByte_alphabet hn]
      exact ⟨⟨ha, .one hn h.1⟩, h.2.symm⟩
  · rintro ⟨⟨ha, hend⟩, rfl⟩
    have ha := decodeByte_mem ha
    cases hend with
    | @three n k l hn hk hl =>
      have hlength : blockLength (alphabet k) (alphabet l) = 4 := by
        rw [blockLength, if_neg (alphabet_ne_pad hk), if_neg (alphabet_ne_pad hl)]
      rw [if_pos hlength, pure_eq_ok, blockBytes, if_pos (alphabet_ne_pad hl)]
      exact ⟨alphabet_ne_pad hn, ⟨ha, decodeByte_mem (.inl (alphabet_mem hn)),
        decodeByte_mem (.inl (alphabet_mem hk)), decodeByte_mem (.inl (alphabet_mem hl))⟩, rfl⟩
    | @two n k hn hk hzero =>
      have hlength : blockLength (alphabet k) pad = 3 := by
        rw [blockLength, if_neg (alphabet_ne_pad hk), if_pos rfl]
      rw [hlength, if_neg (by decide), if_pos rfl, blockBytes, if_neg (fun hne => hne rfl),
        if_pos (alphabet_ne_pad hk)]
      simp only [bind_eq_ok, refuse_eq_ok, exists_unit, pure_eq_ok, decodeByte_alphabet hk,
        lowBits_two hk, Decidable.not_not]
      exact ⟨alphabet_ne_pad hn, ⟨ha, decodeByte_mem (.inl (alphabet_mem hn)),
        value_ne_unrecognized hk, decodeByte_mem (.inr rfl)⟩, hzero, trivial⟩
    | @one n hn hzero =>
      have hlength : blockLength pad pad = 2 := by decide
      rw [hlength, if_neg (by decide), if_neg (by decide), blockBytes, if_neg (fun hne => hne rfl),
        if_neg (fun hne => hne rfl)]
      simp only [bind_eq_ok, refuse_eq_ok, exists_unit, pure_eq_ok, decodeByte_alphabet hn,
        lowBits_four hn, Decidable.not_not]
      exact ⟨alphabet_ne_pad hn, ⟨ha, value_ne_unrecognized hn, decodeByte_mem (.inr rfl),
        decodeByte_mem (.inr rfl)⟩, hzero, trivial⟩

theorem length_blockBytes (a b c d : Byte) : (blockBytes a b c d).length ≤ 3 := by
  unfold blockBytes
  split
  · exact Nat.le_refl 3
  split
  · exact (by decide : 2 ≤ 3)
  · exact (by decide : 1 ≤ 3)

/-- A block with a character at its front is the text of its bytes, and full when it has no
padding. -/
theorem encodeText_blockBytes (h : ValidBlock a b c d) (ha : a ≠ pad) (rest : List Byte)
    (hrest : d = pad → rest = []) :
    encodeText (blockBytes a b c d ++ rest) = a :: b :: c :: d :: encodeText rest := by
  obtain ⟨hmem, hend⟩ := h
  obtain ⟨m, hm, rfl⟩ := mem_Y64_ARRAY.1 (hmem.resolve_right ha)
  cases hend with
  | @three n k l hn hk hl =>
    rw [blockBytes, if_pos (alphabet_ne_pad hl), decodeByte_alphabet hm, decodeByte_alphabet hn,
      decodeByte_alphabet hk, decodeByte_alphabet hl, decode1_value hm hn, decode2_value hn hk,
      decode3_value hk hl]
    have hfirst : (4 * m + n / 16) % 2 ^ 8 / 4 = m := by omega
    have hsecond : (4 * m + n / 16) % 2 ^ 8 % 4 * 16 + (16 * n + k / 4) % 2 ^ 8 / 16 = n := by omega
    have hthird : (16 * n + k / 4) % 2 ^ 8 % 16 * 4 + (64 * k + l) % 2 ^ 8 / 64 = k := by omega
    have hfourth : (64 * k + l) % 2 ^ 8 % 64 = l := by omega
    simp only [List.cons_append, List.nil_append, encodeText, BitVec.toNat_ofNat, hfirst, hsecond,
      hthird, hfourth]
  | @two n k hn hk hzero =>
    rw [hrest rfl, blockBytes, if_neg (fun hne => hne rfl), if_pos (alphabet_ne_pad hk),
      decodeByte_alphabet hm, decodeByte_alphabet hn, decodeByte_alphabet hk,
      decode1_value hm hn, decode2_value hn hk]
    have hfirst : (4 * m + n / 16) % 2 ^ 8 / 4 = m := by omega
    have hsecond : (4 * m + n / 16) % 2 ^ 8 % 4 * 16 + (16 * n + k / 4) % 2 ^ 8 / 16 = n := by omega
    have hthird : (16 * n + k / 4) % 2 ^ 8 % 16 * 4 = k := by omega
    simp only [List.cons_append, List.nil_append, encodeText, BitVec.toNat_ofNat, hfirst, hsecond,
      hthird]
  | @one n hn hzero =>
    rw [hrest rfl, blockBytes, if_neg (fun hne => hne rfl), if_neg (fun hne => hne rfl),
      decodeByte_alphabet hm, decodeByte_alphabet hn, decode1_value hm hn]
    have hfirst : (4 * m + n / 16) % 2 ^ 8 / 4 = m := by omega
    have hsecond : (4 * m + n / 16) % 2 ^ 8 % 4 * 16 = n := by omega
    simp only [List.cons_append, List.nil_append, encodeText, BitVec.toNat_ofNat, hfirst, hsecond]

end Blocks

section Whole

/-- Texts of blocks that are decoded one by one. -/
def ValidBlocks : List Byte → Prop
  | [] => True
  | a :: b :: c :: d :: rest => ValidBlock a b c d ∧ ValidBlocks rest
  | _ => False

/-- Some block starts with the padding, or one that is not the last ends with it. -/
def StrayPadding : List Byte → Prop
  | a :: _ :: _ :: d :: rest => a = pad ∨ (d = pad ∧ rest ≠ []) ∨ StrayPadding rest
  | _ => False

def decodeText : List Byte → List Byte
  | a :: b :: c :: d :: rest => blockBytes a b c d ++ decodeText rest
  | _ => []

/-- What is shorter than a block. -/
theorem partial_cases {y : List Byte}
    (h : ∀ a b c d rest, y = a :: b :: c :: d :: rest → False) :
    y = [] ∨ (∃ a, y = [a]) ∨ (∃ a b, y = [a, b]) ∨ ∃ a b c, y = [a, b, c] := by
  cases y with
  | nil => exact .inl rfl
  | cons a y =>
    cases y with
    | nil => exact .inr (.inl ⟨a, rfl⟩)
    | cons b y =>
      cases y with
      | nil => exact .inr (.inr (.inl ⟨a, b, rfl⟩))
      | cons c y =>
        cases y with
        | nil => exact .inr (.inr (.inr ⟨a, b, c, rfl⟩))
        | cons d rest => exact (h a b c d rest rfl).elim

theorem decodeLoop_ok_iff (h : out.length + y.length / 4 * 3 ≤ capacity) :
    decodeLoop capacity i y out = .ok z ↔ ValidBlocks y ∧ z = out ++ decodeText y := by
  induction y using decodeText.induct generalizing i out with
  | case1 a b c d rest ih =>
    have hlength := length_blockBytes a b c d
    simp only [List.length_cons] at h
    have hstore : storeAll capacity out (blockBytes a b c d) = .ok (out ++ blockBytes a b c d) :=
      storeAll_eq (by omega)
    have hrest := @ih (i + 4) (out ++ blockBytes a b c d)
      (by rw [List.length_append]; omega)
    rw [decodeLoop, bind_eq_ok, ValidBlocks, decodeText, and_assoc, ← List.append_assoc, ← hrest]
    constructor
    · rintro ⟨bytes, hblock, hloop⟩
      obtain ⟨hvalid, rfl⟩ := decodeBlock_ok_iff.1 hblock
      rw [hstore] at hloop
      exact ⟨hvalid, hloop⟩
    · rintro ⟨hvalid, hloop⟩
      exact ⟨_, decodeBlock_ok_iff.2 ⟨hvalid, rfl⟩, by rw [hstore]; exact hloop⟩
  | case2 y hshort =>
    rcases partial_cases hshort with rfl | ⟨a, rfl⟩ | ⟨a, b, rfl⟩ | ⟨a, b, c, rfl⟩
    · rw [decodeLoop, ValidBlocks, decodeText, List.append_nil, Except.ok.injEq, true_and, eq_comm]
      exact nofun
    · exact ⟨nofun, fun h => h.1.elim⟩
    · exact ⟨nofun, fun h => h.1.elim⟩
    · exact ⟨nofun, fun h => h.1.elim⟩

theorem trimmed_eq (h : y.length % 4 = 0 ∨ y.getLast? ≠ some 0) : trimmed y = y := by
  unfold trimmed
  rw [if_neg]
  rintro ⟨hlength, hlast⟩
  exact h.elim hlength fun hne => hne hlast

theorem length_of_validBlocks (h : ValidBlocks y) : y.length % 4 = 0 := by
  induction y using decodeText.induct with
  | case1 a b c d rest ih =>
    have hrest := ih h.2
    simp only [List.length_cons]
    omega
  | case2 y hshort =>
    rcases partial_cases hshort with rfl | ⟨a, rfl⟩ | ⟨a, b, rfl⟩ | ⟨a, b, c, rfl⟩
    · rfl
    · exact h.elim
    · exact h.elim
    · exact h.elim

theorem y64decodeLen_eq {n : Nat} (hn : n < 2 ^ 31) (hfour : n % 4 = 0) :
    y64decodeLen n = (n / 4 * 3 + 1 : Nat) := by
  have hsum : int ((n : Int) + 3) = n + 3 := Int.bmod_eq_of_le (by omega) (by omega)
  rw [y64decodeLen, hsum, Int.tdiv_eq_ediv_of_nonneg (by omega)]
  have hproduct : int (((n : Int) + 3) / 4 * 3) = n / 4 * 3 :=
    (Int.bmod_eq_of_le (by omega) (by omega)).trans (by omega)
  rw [hproduct]
  exact (Int.bmod_eq_of_le (by omega) (by omega)).trans (by omega)

/-- Decoding takes the blocks one by one. -/
theorem decode_ok_iff (hlength : y.length < 2 ^ 31)
    (hnull : y.length % 4 = 0 ∨ y.getLast? ≠ some 0) :
    decode y = .ok x ↔ ValidBlocks y ∧ x = decodeText y := by
  rw [decode, trimmed_eq hnull]
  by_cases hfour : y.length % 4 = 0
  · have hcapacity : newArray (y64decodeLen y.length) = .ok (y.length / 4 * 3 + 1) := by
      rw [y64decodeLen_eq hlength hfour, newArray, if_neg (by omega), Int.toNat_natCast]
    rw [refuse, if_neg (fun hne => hne hfour), ok_bind, hcapacity, ok_bind,
      decodeLoop_ok_iff (by rw [List.length_nil]; omega), List.nil_append]
  · rw [refuse, if_pos hfour]
    constructor
    · intro h
      cases h
    · intro h
      exact absurd (length_of_validBlocks h.1) hfour

/-- What decodes without stray padding is the text of its bytes. -/
theorem encodeText_decodeText (h : ValidBlocks y) (hstray : ¬ StrayPadding y) :
    encodeText (decodeText y) = y := by
  induction y using decodeText.induct with
  | case1 a b c d rest ih =>
    simp only [StrayPadding, not_or] at hstray
    have hrest := ih h.2 hstray.2.2
    have hempty (hd : d = pad) : decodeText rest = [] := by
      have hnil : rest = [] := by
        by_contra hne
        exact hstray.2.1 ⟨hd, hne⟩
      rw [hnil]
      rfl
    rw [decodeText, encodeText_blockBytes h.1 hstray.1 _ hempty, hrest]
  | case2 y hshort =>
    rcases partial_cases hshort with rfl | ⟨a, rfl⟩ | ⟨a, b, rfl⟩ | ⟨a, b, c, rfl⟩
    · rfl
    · exact h.elim
    · exact h.elim
    · exact h.elim

/-- The text of some bytes decodes to them, and its padding stands at its end only. -/
theorem decodeText_encodeText (x : List Byte) :
    ValidBlocks (encodeText x) ∧ decodeText (encodeText x) = x ∧ ¬ StrayPadding (encodeText x) := by
  induction x using encodeText.induct with
  | case1 => exact ⟨trivial, rfl, id⟩
  | case2 a =>
    have ha := a.isLt
    have hfirst : a.toNat / 4 < 64 := by omega
    have hsecond : a.toNat % 4 * 16 < 64 := by omega
    refine ⟨⟨⟨.inl (alphabet_mem hfirst), .one hsecond (by omega)⟩, trivial⟩, ?_, ?_⟩
    · rw [encodeText, decodeText, blockBytes, if_neg (fun hne => hne rfl),
        if_neg (fun hne => hne rfl), decodeByte_alphabet hfirst, decodeByte_alphabet hsecond,
        decode1_value hfirst hsecond, ofNat_eq_of_mod a (by omega)]
      rfl
    · simp only [encodeText, StrayPadding, alphabet_ne_pad hfirst, ne_eq, not_true_eq_false, and_false,
        or_self, not_false_eq_true]
  | case3 a b =>
    have ha := a.isLt
    have hb := b.isLt
    have hfirst : a.toNat / 4 < 64 := by omega
    have hsecond : a.toNat % 4 * 16 + b.toNat / 16 < 64 := by omega
    have hthird : b.toNat % 16 * 4 < 64 := by omega
    refine ⟨⟨⟨.inl (alphabet_mem hfirst), .two hsecond hthird (by omega)⟩, trivial⟩, ?_, ?_⟩
    · rw [encodeText, decodeText, blockBytes, if_neg (fun hne => hne rfl),
        if_pos (alphabet_ne_pad hthird), decodeByte_alphabet hfirst, decodeByte_alphabet hsecond,
        decodeByte_alphabet hthird, decode1_value hfirst hsecond, decode2_value hsecond hthird,
        ofNat_eq_of_mod a (by omega), ofNat_eq_of_mod b (by omega)]
      rfl
    · simp only [encodeText, StrayPadding, alphabet_ne_pad hfirst, ne_eq, not_true_eq_false, and_false,
        or_self, not_false_eq_true]
  | case4 a b c rest ih =>
    have ha := a.isLt
    have hb := b.isLt
    have hc := c.isLt
    have hfirst : a.toNat / 4 < 64 := by omega
    have hsecond : a.toNat % 4 * 16 + b.toNat / 16 < 64 := by omega
    have hthird : b.toNat % 16 * 4 + c.toNat / 64 < 64 := by omega
    have hfourth : c.toNat % 64 < 64 := by omega
    obtain ⟨hvalid, hdecode, hstray⟩ := ih
    refine ⟨⟨⟨.inl (alphabet_mem hfirst), .three hsecond hthird hfourth⟩, hvalid⟩, ?_, ?_⟩
    · rw [encodeText, decodeText, hdecode, blockBytes, if_pos (alphabet_ne_pad hfourth),
        decodeByte_alphabet hfirst, decodeByte_alphabet hsecond, decodeByte_alphabet hthird,
        decodeByte_alphabet hfourth, decode1_value hfirst hsecond, decode2_value hsecond hthird,
        decode3_value hthird hfourth, ofNat_eq_of_mod a (by omega),
        ofNat_eq_of_mod b (by omega), ofNat_eq_of_mod c (by omega)]
      rfl
    · simp only [encodeText, StrayPadding, alphabet_ne_pad hfirst, alphabet_ne_pad hfourth, hstray,
        false_and, or_self, not_false_eq_true]

theorem y64encodeLen_eq {n : Nat} (hn : n ≤ 1610612733) :
    y64encodeLen n = ((n + 2) / 3 * 4 + 1 : Nat) := by
  have hsum : int ((n : Int) + 2) = n + 2 := Int.bmod_eq_of_le (by omega) (by omega)
  rw [y64encodeLen, hsum, Int.tdiv_eq_ediv_of_nonneg (by omega)]
  have hproduct : int (((n : Int) + 2) / 3 * 4) = (n + 2) / 3 * 4 :=
    Int.bmod_eq_of_le (by omega) (by omega)
  rw [hproduct]
  exact (Int.bmod_eq_of_le (by omega) (by omega)).trans (by omega)

/-- Up to the length from which the text does not fit in an array, bytes are encoded. -/
theorem encode_eq (hx : x.length ≤ 1610612733) : encode x = .ok (encodeText x) := by
  unfold encode
  split
  · have hnil : x = [] := List.length_eq_zero_iff.1 (by omega)
    rw [hnil]
    rfl
  · have hcapacity : newArray (y64encodeLen x.length) = .ok ((x.length + 2) / 3 * 4 + 1) := by
      rw [y64encodeLen_eq hx, newArray, if_neg (by omega), Int.toNat_natCast]
    rw [hcapacity, ok_bind,
      encodeLoop_eq (by rw [List.length_nil, length_encodeText]; omega), List.nil_append]

theorem encode_ok (h : encode x = .ok y) : y = encodeText x := by
  unfold encode at h
  split at h
  · have hnil : x = [] := List.length_eq_zero_iff.1 (by omega)
    cases h
    rw [hnil]
    rfl
  · obtain ⟨capacity, _, hloop⟩ := bind_eq_ok.1 h
    exact encodeLoop_ok hloop

theorem length_decodeText (y : List Byte) : (decodeText y).length ≤ y.length / 4 * 3 := by
  induction y using decodeText.induct with
  | case1 a b c d rest ih =>
    have hblock := length_blockBytes a b c d
    rw [decodeText, List.length_append]
    simp only [List.length_cons]
    omega
  | case2 y hshort =>
    have hnone : decodeText y = [] := by
      rcases partial_cases hshort with rfl | ⟨a, rfl⟩ | ⟨a, b, rfl⟩ | ⟨a, b, c, rfl⟩
      · rw [decodeText]
        exact nofun
      · rw [decodeText]
        exact nofun
      · rw [decodeText]
        exact nofun
      · rw [decodeText]
        exact nofun
    rw [hnone]
    exact Nat.zero_le _

/-- Longer inputs are not encoded: the length of the text wraps around. -/
theorem encode_long (h : 1610612733 < x.length) (h' : x.length ≤ 2147483645) :
    encode x = .error .negativeArraySize := by
  have hsum : int ((x.length : Int) + 2) = x.length + 2 := Int.bmod_eq_of_le (by omega) (by omega)
  have hproduct : int (((x.length : Int) + 2) / 3 * 4) = (x.length + 2) / 3 * 4 - 2 ^ 32 := by
    have hwrap : int (((x.length : Int) + 2) / 3 * 4) =
        int (((x.length : Int) + 2) / 3 * 4 - 2 ^ 32) := (Int.sub_bmod_right _ _).symm
    rw [hwrap]
    exact Int.bmod_eq_of_le (by omega) (by omega)
  have hlen : y64encodeLen x.length = (x.length + 2) / 3 * 4 - 2 ^ 32 + 1 := by
    rw [y64encodeLen, hsum, Int.tdiv_eq_ediv_of_nonneg (by omega), hproduct]
    exact Int.bmod_eq_of_le (by omega) (by omega)
  rw [encode, if_neg (by omega), hlen, newArray, if_pos (by omega)]
  rfl

end Whole

section RoundTrip

/-- What is encoded is decoded to the same bytes. -/
theorem decode_encode (x : List Byte) (hx : x.length ≤ 1610612733) :
    ∃ y, encode x = .ok y ∧ decode y = .ok x := by
  obtain ⟨hvalid, hdecode, _⟩ := decodeText_encodeText x
  have hlength := length_encodeText x
  exact ⟨encodeText x, encode_eq hx,
    (decode_ok_iff (by omega) (.inl (by omega))).2 ⟨hvalid, hdecode.symm⟩⟩

theorem decode_encode_hello : ∃ y, encode [104#8, 101#8, 108#8, 108#8, 111#8] = .ok y ∧
    decode y = .ok [104#8, 101#8, 108#8, 108#8, 111#8] :=
  decode_encode [104#8, 101#8, 108#8, 108#8, 111#8] (by decide)

/-- Null bytes whose text would not fit in an array. -/
def longInput : List Byte := List.replicate 1610612734 0

theorem long_input_not_encoded : ¬ ∃ y, encode longInput = .ok y ∧ decode y = .ok longInput := by
  rintro ⟨y, hy, _⟩
  have hlength : longInput.length = 1610612734 := List.length_replicate
  rw [encode_long (by omega) (by omega)] at hy
  cases hy

/-- Decoding accepts the texts of the encoder only, but for blocks with stray padding. -/
theorem decode_iff_encode (y : List Byte) (hlength : y.length < 2 ^ 31)
    (hnull : y.getLast? ≠ some 0) :
    (∀ x, decode y = .ok x ↔ encode x = .ok y) ↔ ¬ (ValidBlocks y ∧ StrayPadding y) := by
  constructor
  · rintro h ⟨hvalid, hstray⟩
    have hdecode : decode y = .ok (decodeText y) :=
      (decode_ok_iff hlength (.inr hnull)).2 ⟨hvalid, rfl⟩
    have htext := encode_ok ((h (decodeText y)).1 hdecode)
    have hclean := (decodeText_encodeText (decodeText y)).2.2
    rw [← htext] at hclean
    exact hclean hstray
  · intro h x
    constructor
    · intro hdecode
      obtain ⟨hvalid, rfl⟩ := (decode_ok_iff hlength (.inr hnull)).1 hdecode
      have hclean : ¬ StrayPadding y := fun hstray => h ⟨hvalid, hstray⟩
      have hbound := length_decodeText y
      rw [encode_eq (by omega), encodeText_decodeText hvalid hclean]
    · intro hencode
      obtain rfl := encode_ok hencode
      obtain ⟨hvalid, hdecode, _⟩ := decodeText_encodeText x
      exact (decode_ok_iff hlength (.inr hnull)).2 ⟨hvalid, hdecode.symm⟩

theorem decode_iff_encode_text :
    (∀ x, decode [65#8, 65#8, 45#8, 45#8] = .ok x ↔ encode x = .ok [65#8, 65#8, 45#8, 45#8]) ↔
      ¬ (ValidBlocks [65#8, 65#8, 45#8, 45#8] ∧ StrayPadding [65#8, 65#8, 45#8, 45#8]) :=
  decode_iff_encode [65#8, 65#8, 45#8, 45#8] (by decide) (by decide)

/-- Padding in the middle and at the front of a text. -/
def strayText : List Byte := [65#8, 65#8, 45#8, 45#8, 45#8, 65#8, 65#8, 65#8]

theorem stray_padding_decoded :
    (∃ x, decode strayText = .ok x) ∧ ¬ ∃ x, encode x = .ok strayText := by
  constructor
  · exact ⟨[0#8, 252#8, 0#8, 0#8], by decide +kernel⟩
  · rintro ⟨x, hx⟩
    have hclean := (decodeText_encodeText x).2.2
    rw [← encode_ok hx] at hclean
    exact hclean (.inr (.inl ⟨rfl, List.cons_ne_nil _ _⟩))

end RoundTrip

end Athenz.YBase64
