import Mathlib.Algebra.Group.Action.Defs
import Mathlib.Algebra.Order.BigOperators.Group.List
import Mathlib.Algebra.Order.Group.Nat
import Flannel.Lib.OnesComplement
import Flannel.Backend.UdpPacket

/-!
# Checksums of the UDP backend

The checksum of a packet is the complement of the one's complement sum of its big endian words
of sixteen bits.  `cksum` adds native words of 32 bits and folds at the end, and `decrement_ttl`
patches the sum without looking at the rest of the header; both work on the bytes as the machine
loads them.  On a little endian machine that is the factor 256 modulo 65535 and a swap of the
bytes at the end, which cancel.
-/

namespace Flannel

open Bytes OnesComplement

namespace UdpPacket

/-- The words of sixteen bits that the bytes of a packet are. -/
def beWords (data : List UInt8) : List Nat := (chunksExact 2 data).map ofBeBytes

/-- The checksum of a packet. -/
def internetChecksum (data : List UInt8) : Nat := 0xffff - sum (beWords data)

/-- A packet that holds its checksum. -/
def ValidChecksum (data : List UInt8) : Prop := sum (beWords data) = 0xffff

/-- The ordinary sum of the words. -/
def wordSum (data : List UInt8) : Nat := (beWords data).sum

/-- What a native load is for the words, modulo 65535. -/
def factor : ByteOrder → Nat
  | .little => 256
  | .big => 1

variable {order : ByteOrder} {data front rest : List UInt8} {v : Nat}

/-! ## Sums of words -/

theorem ofBeBytes_pair (b c : UInt8) : ofBeBytes [b, c] = 256 * b.toNat + c.toNat := by
  simp [ofBeBytes]
  omega

theorem beWords_lt : ∀ w ∈ beWords data, w < 65536 := by
  intro w hw
  obtain ⟨chunk, hchunk, rfl⟩ := List.mem_map.mp hw
  have hlt := ofBeBytes_lt chunk
  rwa [length_of_mem_chunksExact hchunk] at hlt

theorem sum_beWords (data : List UInt8) : sum (beWords data) = rep (wordSum data) :=
  sum_eq_rep beWords_lt

theorem wordSum_append (hfront : front.length % 2 = 0) (rest : List UInt8) :
    wordSum (front ++ rest) = wordSum front + wordSum rest := by
  rw [wordSum, beWords, chunksExact_append (by decide) hfront, List.map_append, List.sum_append]
  rfl

theorem wordSum_nil : wordSum [] = 0 := by
  rw [wordSum, beWords, chunksExact_of_length_lt (by decide)]
  rfl

theorem wordSum_cons_cons (b c : UInt8) (rest : List UInt8) :
    wordSum (b :: c :: rest) = 256 * b.toNat + c.toNat + wordSum rest := by
  have hchunks : chunksExact 2 (b :: c :: rest) = [b, c] :: chunksExact 2 rest :=
    chunksExact_append_of_length [b, c] rest (by decide) rfl
  rw [wordSum, beWords, hchunks, List.map_cons, List.sum_cons, ofBeBytes_pair]
  rfl

theorem validChecksum_iff :
    ValidChecksum data ↔ wordSum data ≠ 0 ∧ wordSum data % 65535 = 0 := by
  rw [ValidChecksum, sum_beWords]
  exact rep_eq_max_iff

/-! ## Native words -/

/-- The ordinary sum of the native words of 32 bits. -/
def nativeSum (order : ByteOrder) (data : List UInt8) : Nat :=
  ((chunksExact 4 data).map (ofNeBytes order)).sum

theorem nativeSum_cons (order : ByteOrder) (b₀ b₁ b₂ b₃ : UInt8) (rest : List UInt8) :
    nativeSum order (b₀ :: b₁ :: b₂ :: b₃ :: rest) =
      ofNeBytes order [b₀, b₁, b₂, b₃] + nativeSum order rest := by
  have hchunks : chunksExact 4 (b₀ :: b₁ :: b₂ :: b₃ :: rest) =
      [b₀, b₁, b₂, b₃] :: chunksExact 4 rest :=
    chunksExact_append_of_length [b₀, b₁, b₂, b₃] rest (by decide) rfl
  rw [nativeSum, hchunks, List.map_cons, List.sum_cons, nativeSum]

/-- A native word of 32 bits stands for its two words of sixteen bits. -/
theorem ofNeBytes_quad (order : ByteOrder) (b₀ b₁ b₂ b₃ : UInt8) :
    (ofNeBytes order [b₀, b₁, b₂, b₃] = 0 ↔
      256 * b₀.toNat + b₁.toNat + (256 * b₂.toNat + b₃.toNat) = 0) ∧
    ofNeBytes order [b₀, b₁, b₂, b₃] % 65535 =
      factor order * (256 * b₀.toNat + b₁.toNat + (256 * b₂.toNat + b₃.toNat)) % 65535 := by
  cases order with
  | little =>
    simp only [ofNeBytes, factor, ofLeBytes_cons, ofLeBytes_nil]
    omega
  | big =>
    simp only [ofNeBytes, factor, ofBeBytes, List.reverse_cons, List.reverse_nil, List.nil_append,
      List.cons_append, ofLeBytes_cons, ofLeBytes_nil]
    omega

/-- The native words stand for the words of sixteen bits. -/
theorem nativeSum_spec (order : ByteOrder) :
    ∀ data : List UInt8, data.length % 4 = 0 →
      (nativeSum order data = 0 ↔ wordSum data = 0) ∧
      nativeSum order data % 65535 = factor order * wordSum data % 65535
  | [], _ => by
    rw [nativeSum, chunksExact_of_length_lt (by decide), wordSum_nil]
    exact ⟨Iff.rfl, rfl⟩
  | [_], h => absurd h (by simp)
  | [_, _], h => absurd h (by simp)
  | [_, _, _], h => absurd h (by simp)
  | b₀ :: b₁ :: b₂ :: b₃ :: rest, h => by
    have hrest : rest.length % 4 = 0 := by
      simp only [List.length_cons] at h
      omega
    obtain ⟨hzero, hmod⟩ := nativeSum_spec order rest hrest
    obtain ⟨hzero', hmod'⟩ := ofNeBytes_quad order b₀ b₁ b₂ b₃
    rw [nativeSum_cons, wordSum_cons_cons, wordSum_cons_cons]
    constructor
    · omega
    · rw [← Nat.add_assoc, Nat.mul_add, Nat.add_mod, hmod, hmod', ← Nat.add_mod]

theorem foldCarry_eq (n : Nat) : foldCarry n = rep n := by
  fun_induction foldCarry n with
  | case1 n hcarry ih =>
    have hlow : n &&& 0xffff = n % 2 ^ 16 := Nat.and_two_pow_sub_one_eq_mod n 16
    rw [ih, hlow, Nat.shiftRight_eq_div_pow]
    exact rep_fold n
  | case2 n hcarry =>
    rw [Nat.shiftRight_eq_div_pow] at hcarry
    exact (rep_of_lt (by omega)).symm

theorem foldlM_addWord {chunks : List (List UInt8)} (n : Nat)
    (hsum : n + (chunks.map (ofNeBytes order)).sum < 2 ^ 64) :
    chunks.foldlM (addWord order) n = some (n + (chunks.map (ofNeBytes order)).sum) := by
  induction chunks generalizing n with
  | nil => rfl
  | cons chunk chunks ih =>
    rw [List.map_cons, List.sum_cons, ← Nat.add_assoc] at hsum
    have hadd : addWord order n chunk = some (n + ofNeBytes order chunk) := if_pos (by omega)
    rw [List.foldlM_cons, hadd, List.map_cons, List.sum_cons, ← Nat.add_assoc]
    exact ih _ hsum

/-- The words of less than 2³² bytes do not overflow the accumulator. -/
theorem nativeSum_lt (hlen : data.length < 2 ^ 32) : nativeSum order data < 2 ^ 64 := by
  have hword : ∀ w ∈ (chunksExact 4 data).map (ofNeBytes order), w ≤ 2 ^ 32 := by
    intro w hw
    obtain ⟨chunk, hchunk, rfl⟩ := List.mem_map.mp hw
    have hlt := ofNeBytes_lt order chunk
    rw [length_of_mem_chunksExact hchunk] at hlt
    omega
  have hsum := List.sum_le_card_nsmul _ _ hword
  have hcount := length_chunksExact_le 4 data
  rw [List.length_map, smul_eq_mul] at hsum
  rw [nativeSum]
  omega

theorem cksum_eq (hlen : data.length < 2 ^ 32) :
    cksum order data = some (0xffff - rep (nativeSum order data)) := by
  have hsum : 0 + ((chunksExact 4 data).map (ofNeBytes order)).sum < 2 ^ 64 := by
    rw [Nat.zero_add]
    exact nativeSum_lt hlen
  rw [cksum, foldlM_addWord 0 hsum, Nat.zero_add]
  have hrep := rep_lt (nativeSum order data)
  show some (0xffff - foldCarry (nativeSum order data) % 2 ^ 16) = _
  rw [foldCarry_eq, Nat.mod_eq_of_lt (show _ < 2 ^ 16 from hrep)]

/-! ## Two bytes -/

theorem leBytes_two {a b : Nat} (hb : b < 256) :
    leBytes 2 (256 * a + b) = [UInt8.ofNat b, UInt8.ofNat a] := by
  have hlow : UInt8.ofNat (256 * a + b) = UInt8.ofNat b := by
    rw [← UInt8.toNat_inj, UInt8.toNat_ofNat', UInt8.toNat_ofNat']
    omega
  have hhigh : (256 * a + b) / 256 = a := by omega
  rw [leBytes, leBytes, leBytes, hlow, hhigh]

theorem beBytes_two {a b : Nat} (hb : b < 256) :
    beBytes 2 (256 * a + b) = [UInt8.ofNat a, UInt8.ofNat b] := by
  rw [beBytes, leBytes_two hb]
  rfl

/-- The complement of a native sum is stored as the complement of the sum. -/
theorem neBytes_complement (order : ByteOrder) (n : Nat) :
    neBytes order 2 (0xffff - rep (factor order * n)) = beBytes 2 (0xffff - rep n) := by
  cases order with
  | little =>
    have hlt := rep_lt n
    have hswap : 0xffff - (rep n % 256 * 256 + rep n / 256) =
        256 * (255 - rep n % 256) + (255 - rep n / 256) := by omega
    have hcomplement : 0xffff - rep n =
        256 * (255 - rep n / 256) + (255 - rep n % 256) := by omega
    show leBytes 2 (0xffff - rep (256 * n)) = _
    rw [rep_mul, hswap, hcomplement, leBytes_two (by omega), beBytes_two (by omega)]
  | big =>
    show beBytes 2 (0xffff - rep (1 * n)) = _
    rw [Nat.one_mul]

/-- As it is stored, the complement of the native sum is the checksum of the bytes. -/
theorem neBytes_nativeSum (order : ByteOrder) (hmul : data.length % 4 = 0) :
    neBytes order 2 (0xffff - rep (nativeSum order data)) = beBytes 2 (internetChecksum data) := by
  obtain ⟨hzero, hmod⟩ := nativeSum_spec order data hmul
  have hfactor : factor order ≠ 0 := by cases order <;> decide
  have hrep : rep (nativeSum order data) = rep (factor order * wordSum data) :=
    rep_congr (by rw [hzero, Nat.mul_eq_zero, or_iff_right hfactor]) hmod
  rw [hrep, neBytes_complement, internetChecksum, sum_beWords]

/-- **The checksum.**  Stored as the machine stores it, `cksum` is the checksum of the bytes, and
its accumulator does not overflow. -/
theorem cksum_spec (order : ByteOrder) {data : List UInt8} (hmul : data.length % 4 = 0)
    (hlen : data.length < 2 ^ 32) :
    ∃ check, cksum order data = some check ∧
      neBytes order 2 check = beBytes 2 (internetChecksum data) :=
  ⟨_, cksum_eq hlen, neBytes_nativeSum order hmul⟩

/-- A header on the wire, with its checksum still to be filled in. -/
theorem cksum_spec_header :
    ∃ check, cksum .little [0x45, 0x00, 0x00, 0x3c, 0x1c, 0x46, 0x40, 0x00, 0x40, 0x06, 0x00, 0x00,
        0xac, 0x10, 0x0a, 0x63, 0xac, 0x10, 0x0a, 0x0c] = some check ∧
      neBytes .little 2 check = [0xb1, 0xe6] := by
  obtain ⟨check, hcheck, hbytes⟩ := cksum_spec .little
    (show [0x45, 0x00, 0x00, 0x3c, 0x1c, 0x46, 0x40, 0x00, 0x40, 0x06, 0x00, 0x00,
        0xac, 0x10, 0x0a, 0x63, 0xac, 0x10, 0x0a, 0x0c].length % 4 = 0 by decide) (by decide)
  exact ⟨check, hcheck, hbytes.trans (by decide +kernel)⟩

/-! ## Patching -/

/-- Two bytes as they are loaded stand for their word. -/
theorem ofNeBytes_two (order : ByteOrder) (b c : UInt8) :
    (256 * b.toNat + c.toNat) % 65535 = factor order * ofNeBytes order [b, c] % 65535 := by
  cases order with
  | little =>
    simp only [ofNeBytes, factor, ofLeBytes_cons, ofLeBytes_nil]
    omega
  | big =>
    simp only [ofNeBytes, factor, ofBeBytes_pair]
    omega

theorem wordSum_beBytes (hv : v < 2 ^ 16) (rest : List UInt8) :
    wordSum (beBytes 2 v ++ rest) = v + wordSum rest := by
  obtain ⟨a, b, ha, hb, rfl⟩ : ∃ a b, a < 2 ^ 8 ∧ b < 2 ^ 8 ∧ v = 256 * a + b :=
    ⟨v / 256, v % 256, by omega, by omega, by omega⟩
  rw [beBytes_two hb, List.cons_append, List.cons_append, List.nil_append, wordSum_cons_cons,
    UInt8.toNat_ofNat', UInt8.toNat_ofNat', Nat.mod_eq_of_lt ha, Nat.mod_eq_of_lt hb]

/-- A number stands for the word of its two bytes as they are stored. -/
theorem wordSum_neBytes (order : ByteOrder) (hv : v < 2 ^ 16) (rest : List UInt8) :
    wordSum (neBytes order 2 v ++ rest) % 65535 =
      (factor order * v + wordSum rest) % 65535 := by
  cases order with
  | little =>
    obtain ⟨a, b, ha, hb, rfl⟩ : ∃ a b, a < 2 ^ 8 ∧ b < 2 ^ 8 ∧ v = 256 * a + b :=
      ⟨v / 256, v % 256, by omega, by omega, by omega⟩
    show wordSum (leBytes 2 (256 * a + b) ++ rest) % 65535 = (256 * _ + wordSum rest) % 65535
    rw [leBytes_two hb, List.cons_append, List.cons_append, List.nil_append, wordSum_cons_cons,
      UInt8.toNat_ofNat', UInt8.toNat_ofNat', Nat.mod_eq_of_lt ha, Nat.mod_eq_of_lt hb]
    omega
  | big =>
    show wordSum (beBytes 2 v ++ rest) % 65535 = (1 * v + wordSum rest) % 65535
    rw [wordSum_beBytes hv, Nat.one_mul]

theorem patchedCheck_lt (order : ByteOrder) (v : Nat) : patchedCheck order v < 2 ^ 16 := by
  rw [patchedCheck]
  split_ifs with h
  · exact Nat.mod_lt _ (by decide)
  · exact Nat.mod_lt _ (by decide)

/-- The patched checksum is more by the increment, with end-around carry.  At the threshold
itself the sum would still fit, and the carry gives the other one of the two zeros. -/
theorem patchedCheck_mod (order : ByteOrder) (hv : v < 2 ^ 16) :
    patchedCheck order v % 65535 = (v + toBe16 order 0x100) % 65535 := by
  cases order with
  | little =>
    have hthreshold : toBe16 .little (0xffff - 0x100) = 0xfffe := by decide
    have hinc : toBe16 .little 0x100 = 1 := by decide
    simp only [patchedCheck, hthreshold, hinc, wrappingAdd]
    split_ifs with h
    · omega
    · omega
  | big =>
    have hthreshold : toBe16 .big (0xffff - 0x100) = 0xfeff := by decide
    have hinc : toBe16 .big 0x100 = 0x100 := by decide
    simp only [patchedCheck, hthreshold, hinc, wrappingAdd]
    split_ifs with h
    · omega
    · omega

/-- As a word, the patched checksum is 0x100 more. -/
theorem factor_mul_patchedCheck (order : ByteOrder) (hv : v < 2 ^ 16) :
    factor order * patchedCheck order v % 65535 = (factor order * v + 256) % 65535 := by
  have hinc : factor order * toBe16 order 0x100 = 256 := by cases order <;> decide
  rw [Nat.mul_mod, patchedCheck_mod order hv, ← Nat.mul_mod, Nat.mul_add, hinc]

theorem getElem?_front (hfront : front.length = 8) (rest : List UInt8) (i : Nat) :
    (front ++ rest)[8 + i]? = rest[i]? := by
  rw [← hfront, List.getElem?_append_right (Nat.le_add_right _ _), Nat.add_sub_cancel_left]

/-- `decrement_ttl` on a packet with its first bytes written out. -/
theorem decrementTtl_eq (order : ByteOrder) (ttl proto high low : UInt8)
    (hfront : front.length = 8) (rest : List UInt8) :
    decrementTtl order (front ++ (ttl :: proto :: high :: low :: rest)) =
      some (if ttl - 1 = 0 then (false, front ++ (ttl - 1) :: proto :: high :: low :: rest)
        else (true, front ++ ((ttl - 1) :: proto ::
          (neBytes order 2 (patchedCheck order (ofNeBytes order [high, low])) ++ rest)))) := by
  have hset := setByte_append front ttl (ttl - 1) (proto :: high :: low :: rest) hfront
  have hcopy : copyFromSlice (front ++ ((ttl - 1) :: proto :: high :: low :: rest)) 10 12
      (neBytes order 2 (patchedCheck order (ofNeBytes order [high, low]))) =
      some (front ++ ((ttl - 1) :: proto ::
        (neBytes order 2 (patchedCheck order (ofNeBytes order [high, low])) ++ rest))) := by
    have h := copyFromSlice_append (front ++ [ttl - 1, proto]) [high, low] rest
      (neBytes order 2 (patchedCheck order (ofNeBytes order [high, low])))
      (show _ = 10 by simp [hfront]) rfl (by simp)
    simpa using h
  have httl : (front ++ (ttl :: proto :: high :: low :: rest))[8]? = some ttl :=
    getElem?_front hfront _ 0
  rw [decrementTtl, httl]
  simp only [Option.bind_eq_bind, Option.bind_some, hset]
  split_ifs with h
  · rfl
  · rw [getElem?_front hfront _ 2, getElem?_front hfront _ 3]
    simp [hcopy]

theorem exists_header {header : List UInt8} {ttl : UInt8} (hlen : iphdrLen ≤ header.length)
    (hbyte : header[8]? = some ttl) :
    ∃ front proto high low rest, front.length = 8 ∧
      header = front ++ (ttl :: proto :: high :: low :: rest) := by
  have hfront : (header.take 8).length = 8 :=
    List.length_take_of_le (le_trans (by decide) hlen)
  have hdrop : 12 ≤ (header.drop 8).length := by
    rw [List.length_drop]
    exact Nat.le_sub_of_add_le hlen
  rw [← List.take_append_drop 8 header] at hbyte
  have hhead : (header.drop 8)[0]? = some ttl := (getElem?_front hfront _ 0).symm.trans hbyte
  match hrest : header.drop 8 with
  | ttl' :: proto :: high :: low :: rest =>
    rw [hrest] at hhead
    cases hhead
    exact ⟨header.take 8, proto, high, low, rest, hfront, by rw [← hrest, List.take_append_drop]⟩
  | [] | [_] | [_, _] | [_, _, _] =>
    rw [hrest] at hdrop
    simp at hdrop

/-- The patched header has the same sum: the word of the time to live is 256 less, and that of the
checksum 256 more. -/
theorem sum_patched (order : ByteOrder) {ttl ttl' proto high low : UInt8}
    (hfront : front.length = 8) (httl : ttl'.toNat + 1 = ttl.toNat) (hpos : ttl'.toNat ≠ 0) :
    sum (beWords (front ++ (ttl' :: proto ::
        (neBytes order 2 (patchedCheck order (ofNeBytes order [high, low])) ++ rest)))) =
      sum (beWords (front ++ (ttl :: proto :: high :: low :: rest))) := by
  have heven : front.length % 2 = 0 := by rw [hfront]
  have hcheck : ofNeBytes order [high, low] < 2 ^ 16 := by
    simpa using ofNeBytes_lt order [high, low]
  have hold := ofNeBytes_two order high low
  have hnew := wordSum_neBytes order (patchedCheck_lt order (ofNeBytes order [high, low])) rest
  have hpatched := factor_mul_patchedCheck order hcheck
  rw [sum_beWords, sum_beWords, wordSum_append heven, wordSum_append heven, wordSum_cons_cons,
    wordSum_cons_cons, wordSum_cons_cons]
  apply rep_congr
  -- neither sum is zero, as both have a time to live
  · omega
  · omega

/-- A valid header is valid when it is patched. -/
theorem validChecksum_patched (order : ByteOrder) {ttl ttl' proto high low : UInt8}
    (hfront : front.length = 8) (httl : ttl'.toNat + 1 = ttl.toNat) (hpos : ttl'.toNat ≠ 0)
    (hvalid : ValidChecksum (front ++ (ttl :: proto :: high :: low :: rest))) :
    ValidChecksum (front ++ (ttl' :: proto ::
      (neBytes order 2 (patchedCheck order (ofNeBytes order [high, low])) ++ rest))) :=
  (sum_patched order hfront httl hpos).trans hvalid

/-- The bytes that a header keeps. -/
theorem getElem?_patched (hfront : front.length = 8) (ttl ttl' proto high low c d : UInt8)
    (rest : List UInt8) {i : Nat} (h8 : i ≠ 8) (h10 : i ≠ 10) (h11 : i ≠ 11) :
    (front ++ (ttl' :: proto :: c :: d :: rest))[i]? =
      (front ++ (ttl :: proto :: high :: low :: rest))[i]? := by
  by_cases hi : i < 8
  · rw [List.getElem?_append_left (by omega), List.getElem?_append_left (by omega)]
  · obtain ⟨j, rfl⟩ := Nat.exists_eq_add_of_le (Nat.le_of_not_lt hi)
    rw [getElem?_front hfront, getElem?_front hfront]
    match j with
    | 0 => exact absurd rfl h8
    | 1 => rfl
    | 2 => exact absurd rfl h10
    | 3 => exact absurd rfl h11
    | j + 4 => rfl

/-- **The time to live.**  Of a packet with a valid header, `decrement_ttl` discards the one
whose time to live is 1.  Every other one it keeps: the time to live is one less, the header is
still valid, and nothing changes but these bytes and those of the checksum. -/
theorem decrementTtl_spec (order : ByteOrder) {header : List UInt8} {ttl : UInt8}
    (hlen : iphdrLen ≤ header.length) (hbyte : header[8]? = some ttl) (httl : 1 ≤ ttl.toNat)
    (hvalid : ValidChecksum header) (payload : List UInt8) :
    ∃ kept header', decrementTtl order (header ++ payload) = some (kept, header' ++ payload) ∧
      header'.length = header.length ∧ (kept = false ↔ ttl.toNat = 1) ∧
      (kept = true →
        (∃ ttl', header'[8]? = some ttl' ∧ ttl'.toNat + 1 = ttl.toNat) ∧ ValidChecksum header' ∧
        ∀ i, i ≠ 8 → i ≠ 10 → i ≠ 11 → header'[i]? = header[i]?) := by
  obtain ⟨front, proto, high, low, rest, hfront, rfl⟩ := exists_header hlen hbyte
  obtain ⟨c, d, hcheck⟩ := List.length_eq_two.mp
    (length_neBytes order 2 (patchedCheck order (ofNeBytes order [high, low])))
  have hnat : (ttl - 1).toNat + 1 = ttl.toNat := by
    have hsub : (ttl - 1).toNat = ttl.toNat - 1 :=
      UInt8.toNat_sub_of_le _ _ (UInt8.le_iff_toNat_le.mpr httl)
    omega
  have hzero : ttl - 1 = 0 ↔ ttl.toNat = 1 := by
    rw [← UInt8.toNat_inj, UInt8.toNat_zero]
    omega
  have heq := decrementTtl_eq order ttl proto high low hfront (rest ++ payload)
  by_cases httl' : ttl.toNat = 1
  · rw [if_pos (hzero.mpr httl')] at heq
    refine ⟨false, front ++ ((ttl - 1) :: proto :: high :: low :: rest), ?_, ?_, ?_, ?_⟩
    · simpa using heq
    · simp
    · simpa using httl'
    · simp
  · rw [if_neg (mt hzero.mp httl')] at heq
    have hvalid' := validChecksum_patched order hfront hnat (by omega) hvalid
    refine ⟨true, front ++ ((ttl - 1) :: proto :: (c :: d :: rest)), ?_, ?_, ?_, fun _ => ?_⟩
    · simpa [hcheck] using heq
    · simp
    · simpa using httl'
    refine ⟨⟨ttl - 1, getElem?_front hfront _ 0, hnat⟩, by simpa [hcheck] using hvalid', ?_⟩
    exact fun i h8 h10 h11 => getElem?_patched hfront _ _ _ _ _ _ _ _ h8 h10 h11

/-- A checksum at which the increment carries. -/
theorem decrementTtl_spec_carry :
    ∃ header', decrementTtl .little ([0x45, 0, 0, 0, 0, 0, 0, 0, 0x40, 1, 0xfe, 0xff, 0x7b, 0xfe,
        0, 0, 0, 0, 0, 0] ++ [7]) = some (true, header' ++ [7]) ∧ ValidChecksum header' := by
  obtain ⟨kept, header', heq, -, hkept, hspec⟩ := decrementTtl_spec .little
    (show iphdrLen ≤ [0x45, 0, 0, 0, 0, 0, 0, 0, 0x40, 1, 0xfe, 0xff, 0x7b, 0xfe,
        0, 0, 0, 0, 0, 0].length by decide) rfl (by decide)
    (show sum (beWords _) = 0xffff by decide +kernel) [7]
  obtain rfl : kept = true := by
    rw [← Bool.not_eq_false, hkept]
    decide
  exact ⟨header', heq, (hspec rfl).2.1⟩

end UdpPacket

end Flannel
