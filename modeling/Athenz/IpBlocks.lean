import Athenz.AccessToken

namespace Athenz.Zts.IPBlock
open Lib Lib.Text Lib.Decimal
set_option autoImplicit true

section Addresses

/-- An address of four or of sixteen bytes. -/
inductive InetAddress where
  | inet4 (address : BitVec 32)
  | inet6 (address : BitVec 128)
deriving DecidableEq

/-- The bytes of an address, the most significant one first. -/
def bytes (n : Nat) (address : BitVec w) : List (BitVec 8) :=
  (List.range n).reverse.map fun i => address.extractLsb' (8 * i) 8

def InetAddress.getAddress : InetAddress → List (BitVec 8)
  | .inet4 address => bytes 4 address
  | .inet6 address => bytes 16 address

def foldBytes (bytes : List (BitVec 8)) : BitVec 64 :=
  bytes.foldl (fun ipValue b => ipValue <<< 8 ||| b.setWidth 64) 0

variable (forString : Str → Option InetAddress)

def convertIPToLong (ipAddress : Str) : Option (BitVec 64) :=
  (forString ipAddress).map fun addr => foldBytes addr.getAddress

def convertMaskToLong (value : Nat) : BitVec 64 := BitVec.ofNat 64 (2 ^ 32 - 2 ^ (32 - value))

end Addresses

section Blocks

structure Block where
  subnet : BitVec 64
  mask : BitVec 64
deriving DecidableEq

variable [DigitRules] (forString : Str → Option InetAddress)

/-- The block of a configured line; no block when the line is refused. -/
def ofLine (ipBlock : Str) : Option Block :=
  match indexOf ['/'] ipBlock with
  | none => none
  | some idx => do
    let subnet ← convertIPToLong forString (trim (ipBlock.take idx))
    let val ← parseInteger 31 (trim (ipBlock.drop (idx + 1)))
    if val < 1 ∨ val > 32 then none
    else some { subnet := subnet, mask := convertMaskToLong val.toNat }

def Block.ipCheck (block : Block) (addr : BitVec 64) : Bool :=
  addr &&& block.mask = block.subnet

/-- The answer for an address; none when its text is refused. -/
def verifyIPAddressAccess (ipAddress : Str) (ipBlocks : List Block) : Option Bool :=
  if ipBlocks.isEmpty then some true
  else (convertIPToLong forString ipAddress).map fun ipAddr =>
    ipBlocks.any (·.ipCheck ipAddr)

def verifyCertRefreshIPAddress (certRefreshIPBlocks : List Block) (ipAddress : Str) : Option Bool :=
  verifyIPAddressAccess forString ipAddress certRefreshIPBlocks

def verifyInstanceCertIPAddress (instanceCertIPBlocks : Map Str (List Block))
    (provider ipAddress : Str) : Option Bool :=
  match instanceCertIPBlocks.lookup provider with
  | none => some instanceCertIPBlocks.entries.isEmpty
  | some certIPBlocks => verifyIPAddressAccess forString ipAddress certIPBlocks

end Blocks

section Membership

/-- The first bits of two addresses agree. -/
def SamePrefix (length : Nat) (a b : BitVec 32) : Prop := ∀ i < length, a.getMsbD i = b.getMsbD i

/-- The bits behind the first ones are zero. -/
def HostBitsClear (length : Nat) (a : BitVec 32) : Prop := ∀ i, length ≤ i → a.getMsbD i = false

def lastFourBytes : InetAddress → BitVec 32
  | .inet4 address => address
  | .inet6 address => address.setWidth 32

/-- The four bytes before the last four, where an address has them, are zero. -/
def NextBytesClear : InetAddress → Prop
  | .inet4 _ => True
  | .inet6 address => (address >>> 32).setWidth 32 = 0#32

/-- An address as the code compares it: nothing set outside the first bits of its last four
bytes, as far as eight bytes reach. -/
def Comparable (length : Nat) (address : InetAddress) : Prop :=
  HostBitsClear length (lastFourBytes address) ∧ NextBytesClear address

variable [DigitRules] (forString : Str → Option InetAddress)

/-- A configured line has an address and a prefix length. -/
def Written (ipBlock : Str) (address : InetAddress) (length : Nat) : Prop :=
  ∃ idx, indexOf ['/'] ipBlock = some idx ∧ forString (trim (ipBlock.take idx)) = some address ∧
    parseInteger 31 (trim (ipBlock.drop (idx + 1))) = some (length : Int) ∧
      1 ≤ length ∧ length ≤ 32

/-- A client has an address in the block of a line, both of them IPv4. -/
def InLine (client : InetAddress) (ipBlock : Str) : Prop :=
  ∃ a b length, client = .inet4 a ∧ Written forString ipBlock (.inet4 b) length ∧
    SamePrefix length a b

/-- The last four bytes of a client are in a line with a comparable address. -/
def MatchesLastBytes (client : InetAddress) (ipBlock : Str) : Prop :=
  ∃ address length, Written forString ipBlock address length ∧ Comparable length address ∧
    SamePrefix length (lastFourBytes client) (lastFourBytes address)

/-- A line with an IPv4 address that has bits behind its prefix. -/
def HostBitsSet (ipBlock : Str) : Prop :=
  ∃ b length, Written forString ipBlock (.inet4 b) length ∧ ¬ HostBitsClear length b

/-- A match by the last four bytes in which the client or the line is IPv6. -/
def MatchesOtherFamily (client : InetAddress) (ipBlock : Str) : Prop :=
  MatchesLastBytes forString client ipBlock ∧
    ((∃ a, client = .inet6 a) ∨ ∃ b length, Written forString ipBlock (.inet6 b) length)

/-- The client is in lines with host bits only, and nothing else lets it in. -/
def HiddenByHostBits (client : InetAddress) (ipBlocks : List Str) : Prop :=
  (∃ ipBlock ∈ ipBlocks, InLine forString client ipBlock) ∧
    ∀ ipBlock ∈ ipBlocks, (InLine forString client ipBlock → HostBitsSet forString ipBlock) ∧
      ¬ MatchesOtherFamily forString client ipBlock

/-- The client is in no line, and a match of the other family lets it in. -/
def AdmittedByOtherFamily (client : InetAddress) (ipBlocks : List Str) : Prop :=
  (∀ ipBlock ∈ ipBlocks, ¬ InLine forString client ipBlock) ∧
    ∃ ipBlock ∈ ipBlocks, MatchesOtherFamily forString client ipBlock

end Membership

section Bits

theorem getLsbD_foldBytes (bytes : List (BitVec 8)) (k : Nat) :
    (foldBytes bytes).getLsbD k =
      (decide (k < 64) && (bytes.reverse.getD (k / 8) 0#8).getLsbD (k % 8)) := by
  induction bytes using List.reverseRecOn generalizing k with
  | nil => simp [foldBytes]
  | append_singleton bytes b ih =>
    have hstep : foldBytes (bytes ++ [b]) = foldBytes bytes <<< 8 ||| b.setWidth 64 := by
      rw [foldBytes, List.foldl_append]
      rfl
    rw [hstep, BitVec.getLsbD_or, BitVec.getLsbD_shiftLeft, BitVec.getLsbD_setWidth, ih,
      List.reverse_append, List.reverse_singleton, List.singleton_append]
    by_cases hk : k < 8
    · have hdiv : k / 8 = 0 := by omega
      have hmod : k % 8 = k := by omega
      simp [hk, hdiv, hmod]
    · have hdiv : k / 8 = (k - 8) / 8 + 1 := by omega
      have hmod : k % 8 = (k - 8) % 8 := by omega
      have hb : b.getLsbD k = false := BitVec.getLsbD_of_ge b k (by omega)
      rw [hdiv, hmod, List.getD_cons_succ, hb]
      by_cases hlong : k < 64
      · have hless : k - 8 < 64 := by omega
        simp [hk, hlong, hless]
      · simp [hlong]

theorem foldBytes_bytes (n : Nat) (address : BitVec (8 * n)) :
    foldBytes (bytes n address) = address.setWidth 64 := by
  apply BitVec.eq_of_getLsbD_eq
  intro k hk
  rw [getLsbD_foldBytes, bytes, ← List.map_reverse, List.reverse_reverse, List.getD_eq_getElem?_getD,
    List.getElem?_map, BitVec.getLsbD_setWidth]
  by_cases hn : k / 8 < n
  · have hdiv : 8 * (k / 8) + k % 8 = k := by omega
    have hmod : k % 8 < 8 := by omega
    simp [hn, hk, hmod, hdiv]
  · have hb : address.getLsbD k = false := BitVec.getLsbD_of_ge address k (by omega)
    simp [hn, hk, hb]

theorem getLsbD_mask {length : Nat} (hlength : length ≤ 32) (k : Nat) :
    (convertMaskToLong length).getLsbD k = decide (32 - length ≤ k ∧ k < 32) := by
  have hsplit : 2 ^ 32 - 2 ^ (32 - length) = 2 ^ (32 - length) * (2 ^ length - 1) := by
    rw [Nat.mul_sub, ← Nat.pow_add, Nat.mul_one, Nat.sub_add_cancel hlength]
  rw [convertMaskToLong, hsplit, BitVec.getLsbD_ofNat, Nat.testBit_two_pow_mul,
    Nat.testBit_two_pow_sub_one]
  by_cases hk : k < 64
  · simp only [hk, decide_true, Bool.true_and]
    rw [Bool.eq_iff_iff, Bool.and_eq_true, decide_eq_true_iff, decide_eq_true_iff,
      decide_eq_true_iff]
    omega
  · have hfar : ¬ (32 - length ≤ k ∧ k < 32) := by omega
    simp only [hk, hfar, decide_false, Bool.false_and]

theorem samePrefix_iff (length : Nat) (a b : BitVec 32) :
    SamePrefix length a b ↔ ∀ k, 32 - length ≤ k → k < 32 → a.getLsbD k = b.getLsbD k := by
  constructor
  · intro h k hlow hhigh
    have hsame := h (31 - k) (by omega)
    have hback : 32 - 1 - (31 - k) = k := by omega
    rw [BitVec.getMsbD_eq_getLsbD, BitVec.getMsbD_eq_getLsbD, hback] at hsame
    simpa only [show 31 - k < 32 by omega, decide_true, Bool.true_and] using hsame
  · intro h i hi
    rw [BitVec.getMsbD_eq_getLsbD, BitVec.getMsbD_eq_getLsbD]
    by_cases hlong : i < 32
    · rw [h (32 - 1 - i) (by omega) (by omega)]
    · simp only [hlong, decide_false, Bool.false_and]

theorem hostBitsClear_iff (length : Nat) (a : BitVec 32) :
    HostBitsClear length a ↔ ∀ k, k < 32 - length → a.getLsbD k = false := by
  constructor
  · intro h k hk
    have hclear := h (31 - k) (by omega)
    have hback : 32 - 1 - (31 - k) = k := by omega
    rw [BitVec.getMsbD_eq_getLsbD, hback] at hclear
    simpa only [show 31 - k < 32 by omega, decide_true, Bool.true_and] using hclear
  · intro h i hi
    rw [BitVec.getMsbD_eq_getLsbD]
    by_cases hlong : i < 32
    · rw [h (32 - 1 - i) (by omega), Bool.and_false]
    · simp only [hlong, decide_false, Bool.false_and]

theorem foldBytes_getAddress (address : InetAddress) (k : Nat) (hk : k < 32) :
    (foldBytes address.getAddress).getLsbD k = (lastFourBytes address).getLsbD k := by
  have hlong : k < 64 := by omega
  cases address with
  | inet4 address => rw [InetAddress.getAddress, foldBytes_bytes 4 address, lastFourBytes,
      BitVec.getLsbD_setWidth, decide_eq_true hlong, Bool.true_and]
  | inet6 address => rw [InetAddress.getAddress, foldBytes_bytes 16 address, lastFourBytes,
      BitVec.getLsbD_setWidth, BitVec.getLsbD_setWidth, decide_eq_true hlong, decide_eq_true hk]

theorem nextBytesClear_iff (address : InetAddress) :
    NextBytesClear address ↔
      ∀ k, 32 ≤ k → k < 64 → (foldBytes address.getAddress).getLsbD k = false := by
  cases address with
  | inet4 address =>
    apply iff_of_true trivial
    intro k hlow hhigh
    rw [InetAddress.getAddress, foldBytes_bytes 4 address, BitVec.getLsbD_setWidth,
      BitVec.getLsbD_of_ge address k hlow, Bool.and_false]
  | inet6 address =>
    rw [InetAddress.getAddress, foldBytes_bytes 16 address, NextBytesClear]
    constructor
    · intro h k hlow hhigh
      have hbit : ((address >>> 32).setWidth 32).getLsbD (k - 32) = false := by
        rw [h, BitVec.getLsbD_zero]
      have hback : 32 + (k - 32) = k := by omega
      rw [BitVec.getLsbD_setWidth, BitVec.getLsbD_ushiftRight, hback] at hbit
      rw [BitVec.getLsbD_setWidth]
      simpa only [show k - 32 < 32 by omega, hhigh, decide_true, Bool.true_and] using hbit
    · intro h
      apply BitVec.eq_of_getLsbD_eq
      intro k hk
      have hbit := h (32 + k) (by omega) (by omega)
      rw [BitVec.getLsbD_setWidth, decide_eq_true (by omega), Bool.true_and] at hbit
      rw [BitVec.getLsbD_setWidth, BitVec.getLsbD_ushiftRight, hbit, Bool.and_false,
        BitVec.getLsbD_zero]

end Bits

section Checks

/-- The check of a block compares the last four bytes with an address that has to be
comparable. -/
theorem ipCheck_iff {length : Nat} (hlength : length ≤ 32) (client address : InetAddress) :
    Block.ipCheck
        { subnet := foldBytes address.getAddress
          mask := convertMaskToLong length } (foldBytes client.getAddress) = true ↔
      Comparable length address ∧
        SamePrefix length (lastFourBytes client) (lastFourBytes address) := by
  rw [Block.ipCheck, decide_eq_true_iff, Comparable, samePrefix_iff, hostBitsClear_iff,
    nextBytesClear_iff]
  constructor
  · intro h
    have hbit (k : Nat) : ((foldBytes client.getAddress).getLsbD k &&
        decide (32 - length ≤ k ∧ k < 32)) = (foldBytes address.getAddress).getLsbD k := by
      rw [← getLsbD_mask hlength, ← BitVec.getLsbD_and, h]
    have hout (k : Nat) (hk : ¬ (32 - length ≤ k ∧ k < 32)) :
        (foldBytes address.getAddress).getLsbD k = false := by
      rw [← hbit, decide_eq_false hk, Bool.and_false]
    refine ⟨⟨?_, ?_⟩, ?_⟩
    · intro k hk
      rw [← foldBytes_getAddress address k (by omega)]
      exact hout k (by omega)
    · intro k hlow _
      exact hout k (by omega)
    · intro k hlow hhigh
      rw [← foldBytes_getAddress client k hhigh, ← foldBytes_getAddress address k hhigh, ← hbit,
        decide_eq_true ⟨hlow, hhigh⟩, Bool.and_true]
  · rintro ⟨⟨hhost, hnext⟩, hsame⟩
    apply BitVec.eq_of_getLsbD_eq
    intro k hk
    rw [BitVec.getLsbD_and, getLsbD_mask hlength]
    by_cases hin : 32 - length ≤ k ∧ k < 32
    · rw [decide_eq_true hin, Bool.and_true, foldBytes_getAddress client k hin.2,
        foldBytes_getAddress address k hin.2, hsame k hin.1 hin.2]
    · rw [decide_eq_false hin, Bool.and_false]
      by_cases hlow : k < 32
      · rw [foldBytes_getAddress address k hlow, hhost k (by omega)]
      · rw [hnext k (by omega) hk]

variable [DigitRules] {forString : Str → Option InetAddress}

theorem ofLine_eq_some (h : ofLine forString ipBlock = some block) :
    ∃ address length, Written forString ipBlock address length ∧
      block.subnet = foldBytes address.getAddress ∧ block.mask = convertMaskToLong length := by
  unfold ofLine at h
  split at h
  · cases h
  · rename_i idx hidx
    obtain ⟨subnet, hsubnet, h⟩ := Option.bind_eq_some_iff.1 h
    obtain ⟨val, hval, h⟩ := Option.bind_eq_some_iff.1 h
    obtain ⟨address, haddress, rfl⟩ := Option.map_eq_some_iff.1 hsubnet
    split at h
    · cases h
    · rename_i hrange
      cases h
      have hnat : (val.toNat : Int) = val := Int.toNat_of_nonneg (by omega)
      exact ⟨address, val.toNat,
        ⟨idx, hidx, haddress, by rw [hnat]; exact hval, by omega, by omega⟩, rfl, rfl⟩

/-- The address and the prefix length of a line are its own. -/
theorem Written.unique (h : Written forString ipBlock address length)
    (h' : Written forString ipBlock address' length') : address = address' ∧ length = length' := by
  obtain ⟨idx, hidx, haddress, hlength, _⟩ := h
  obtain ⟨idx', hidx', haddress', hlength', _⟩ := h'
  rw [hidx] at hidx'
  cases hidx'
  rw [haddress] at haddress'
  rw [hlength] at hlength'
  cases haddress'
  cases hlength'
  exact ⟨rfl, rfl⟩

theorem ipCheck_ofLine (h : ofLine forString ipBlock = some block) (client : InetAddress) :
    block.ipCheck (foldBytes client.getAddress) = true ↔
      MatchesLastBytes forString client ipBlock := by
  obtain ⟨address, length, hwritten, hsubnet, hmask⟩ := ofLine_eq_some h
  have hlength : length ≤ 32 := by
    obtain ⟨_, _, _, _, _, hlength⟩ := hwritten
    exact hlength
  have hcheck := ipCheck_iff hlength client address
  rw [← hsubnet, ← hmask] at hcheck
  apply hcheck.trans
  constructor
  · rintro ⟨hcomparable, hsame⟩
    exact ⟨address, length, hwritten, hcomparable, hsame⟩
  · rintro ⟨address', length', hwritten', hcomparable, hsame⟩
    obtain ⟨rfl, rfl⟩ := hwritten.unique hwritten'
    exact ⟨hcomparable, hsame⟩

theorem matchesLastBytes_iff (client : InetAddress) :
    MatchesLastBytes forString client ipBlock ↔
      (InLine forString client ipBlock ∧ ¬ HostBitsSet forString ipBlock) ∨
        MatchesOtherFamily forString client ipBlock := by
  constructor
  · intro h
    obtain ⟨address, length, hwritten, hcomparable, hsame⟩ := id h
    cases client with
    | inet6 a => exact .inr ⟨h, .inl ⟨a, rfl⟩⟩
    | inet4 a =>
      cases address with
      | inet6 b => exact .inr ⟨h, .inr ⟨b, length, hwritten⟩⟩
      | inet4 b =>
        refine .inl ⟨⟨a, b, length, rfl, hwritten, hsame⟩, ?_⟩
        rintro ⟨b', length', hwritten', hset⟩
        obtain ⟨heq, rfl⟩ := hwritten.unique hwritten'
        cases heq
        exact hset hcomparable.1
  · rintro (⟨⟨a, b, length, rfl, hwritten, hsame⟩, hset⟩ | h)
    · by_contra hno
      have hclear : ¬ HostBitsClear length b := fun hclear =>
        hno ⟨.inet4 b, length, hwritten, ⟨hclear, trivial⟩, hsame⟩
      exact hset ⟨b, length, hwritten, hclear⟩
    · exact h.1

theorem any_ipCheck_iff {ipBlocks : List Str} {blocks : List Block}
    (hblocks : ipBlocks.mapM (ofLine forString) = some blocks)
    (client : InetAddress) :
    blocks.any (·.ipCheck (foldBytes client.getAddress)) = true ↔
      ∃ ipBlock ∈ ipBlocks, MatchesLastBytes forString client ipBlock := by
  induction ipBlocks generalizing blocks with
  | nil =>
    rw [List.mapM_nil] at hblocks
    cases hblocks
    simp only [List.any_nil, Bool.false_eq_true, List.not_mem_nil, false_and, exists_false]
  | cons line lines ih =>
    rw [List.mapM_cons] at hblocks
    obtain ⟨block, hblock, hblocks⟩ := Option.bind_eq_some_iff.1 hblocks
    obtain ⟨rest, hrest, hblocks⟩ := Option.bind_eq_some_iff.1 hblocks
    cases hblocks
    rw [List.any_cons, Bool.or_eq_true, ipCheck_ofLine hblock, ih hrest, List.exists_mem_cons_iff]

theorem verifyIPAddressAccess_eq_some_true_iff (hlines : ipBlocks ≠ [])
    (hblocks : ipBlocks.mapM (ofLine forString) = some blocks)
    (hclient : forString ipAddress = some client) :
    verifyIPAddressAccess forString ipAddress blocks = some true ↔
      ∃ ipBlock ∈ ipBlocks, MatchesLastBytes forString client ipBlock := by
  have hne : blocks.isEmpty = false := by
    cases blocks with
    | cons block blocks => rfl
    | nil =>
      cases ipBlocks with
      | nil => exact absurd rfl hlines
      | cons line lines =>
        rw [List.mapM_cons] at hblocks
        obtain ⟨block, hblock, hblocks⟩ := Option.bind_eq_some_iff.1 hblocks
        obtain ⟨rest, hrest, hblocks⟩ := Option.bind_eq_some_iff.1 hblocks
        cases hblocks
  rw [verifyIPAddressAccess, hne, convertIPToLong, hclient, ← any_ipCheck_iff hblocks]
  simp only [Bool.false_eq_true, if_false, Option.map_some, Option.some_inj]

end Checks

section AllowLists

/-- An allow-list means the lines that have the client, unless host bits hide them or a match
of the other family lets the client in. -/
theorem verifyIPAddressAccess_iff_inLine [DigitRules] (forString : Str → Option InetAddress)
    (ipBlocks : List Str) (blocks : List Block) (ipAddress : Str) (client : InetAddress)
    (hlines : ipBlocks ≠ []) (hblocks : ipBlocks.mapM (ofLine forString) = some blocks)
    (hclient : forString ipAddress = some client) :
    (verifyIPAddressAccess forString ipAddress blocks = some true ↔
      ∃ ipBlock ∈ ipBlocks, InLine forString client ipBlock) ↔
    ¬ HiddenByHostBits forString client ipBlocks ∧
      ¬ AdmittedByOtherFamily forString client ipBlocks := by
  rw [verifyIPAddressAccess_eq_some_true_iff hlines hblocks hclient]
  constructor
  · intro h
    constructor
    · rintro ⟨hin, hall⟩
      obtain ⟨ipBlock, hline, hmatches⟩ := h.2 hin
      rcases (matchesLastBytes_iff client).1 hmatches with ⟨hhas, hset⟩ | hother
      · exact hset ((hall ipBlock hline).1 hhas)
      · exact (hall ipBlock hline).2 hother
    · rintro ⟨hnone, ipBlock, hline, hother⟩
      obtain ⟨ipBlock', hline', hhas⟩ := h.1 ⟨ipBlock, hline, hother.1⟩
      exact hnone ipBlock' hline' hhas
  · rintro ⟨hhidden, hadmitted⟩
    constructor
    · rintro ⟨ipBlock, hline, hmatches⟩
      rcases (matchesLastBytes_iff client).1 hmatches with ⟨hhas, _⟩ | hother
      · exact ⟨ipBlock, hline, hhas⟩
      · by_contra hno
        have hnone : ∀ other ∈ ipBlocks, ¬ InLine forString client other :=
          fun other hmem hhas => hno ⟨other, hmem, hhas⟩
        exact hadmitted ⟨hnone, ipBlock, hline, hother⟩
    · intro hin
      by_contra hno
      refine hhidden ⟨hin, fun ipBlock hline => ⟨fun hhas => ?_, fun hother => ?_⟩⟩
      · by_contra hset
        exact hno ⟨ipBlock, hline, (matchesLastBytes_iff client).2 (.inl ⟨hhas, hset⟩)⟩
      · exact hno ⟨ipBlock, hline, hother.1⟩

/-- The addresses of the examples, as they are read from their texts. -/
def readAddress (text : Str) : Option InetAddress :=
  if text = "10.1.0.0" then some (.inet4 0x0a010000#32)
  else if text = "10.1.0.5" then some (.inet4 0x0a010005#32)
  else if text = "2001:db8::a01:5" then some (.inet6 0x20010db800000000000000000a010005#128)
  else none

def sportsNetwork : List Str := ["10.1.0.0/16".toList]

/-- An IPv6 client passes a list of IPv4 addresses by its last four bytes. -/
theorem other_family_admitted :
    (sportsNetwork.mapM (@ofLine .ascii readAddress)).bind
        (verifyIPAddressAccess readAddress "2001:db8::a01:5") = some true ∧
      readAddress "2001:db8::a01:5" =
        some (.inet6 0x20010db800000000000000000a010005#128) := by
  decide +kernel

def sportsBlock : Block where
  subnet := 0x0a010000#64
  mask := 0xffff0000#64

theorem network_member_admitted :
    (verifyIPAddressAccess readAddress "10.1.0.5" [sportsBlock] = some true ↔
      ∃ ipBlock ∈ sportsNetwork, @InLine .ascii readAddress (.inet4 0x0a010005#32) ipBlock) ↔
    ¬ @HiddenByHostBits .ascii readAddress (.inet4 0x0a010005#32) sportsNetwork ∧
      ¬ @AdmittedByOtherFamily .ascii readAddress (.inet4 0x0a010005#32) sportsNetwork :=
  @verifyIPAddressAccess_iff_inLine .ascii readAddress sportsNetwork [sportsBlock] "10.1.0.5"
    (.inet4 0x0a010005#32) (by decide) (by decide +kernel) (by decide +kernel)

end AllowLists

end Athenz.Zts.IPBlock
