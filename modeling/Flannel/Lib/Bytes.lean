import Mathlib.Algebra.Ring.Nat

/-!
# Numbers as bytes

`to_le_bytes`, `to_be_bytes` and `to_ne_bytes` with the readers that undo them, for numbers of
any width.  A machine is its byte order: what a native load or store does is a function of it,
so a result about every machine is one about both orders.

A number of so many bytes reads back if it fits, and any bytes are those of the number that
they are read as.
-/

namespace Bytes

/-- `to_le_bytes`, for a number of so many bytes. -/
def leBytes : Nat → Nat → List UInt8
  | 0, _ => []
  | n + 1, v => UInt8.ofNat v :: leBytes n (v / 256)

/-- `from_le_bytes`. -/
def ofLeBytes (bytes : List UInt8) : Nat := bytes.foldr (fun b v => b.toNat + 256 * v) 0

/-- `to_be_bytes`. -/
def beBytes (n v : Nat) : List UInt8 := (leBytes n v).reverse

/-- `from_be_bytes`. -/
def ofBeBytes (bytes : List UInt8) : Nat := ofLeBytes bytes.reverse

/-- The bytes from one position to another. -/
def byteRange (bytes : List UInt8) (start stop : Nat) : List UInt8 :=
  (bytes.drop start).take (stop - start)

/-- `&buf[start..stop]`; out of range, the code panics. -/
def slice (buf : List UInt8) (start stop : Nat) : Option (List UInt8) :=
  if start ≤ stop ∧ stop ≤ buf.length then some (byteRange buf start stop) else none

/-- `buf[i] = b`; out of range, the code panics. -/
def setByte (buf : List UInt8) (i : Nat) (b : UInt8) : Option (List UInt8) :=
  if i < buf.length then some (buf.set i b) else none

/-- `copy_from_slice` into a part of the buffer; out of range, and for a part of another length,
the code panics. -/
def copyFromSlice (buf : List UInt8) (start stop : Nat) (src : List UInt8) :
    Option (List UInt8) :=
  if start ≤ stop ∧ stop ≤ buf.length ∧ src.length = stop - start then
    some (buf.take start ++ (src ++ buf.drop stop))
  else none

/-- `slice::chunks_exact`. -/
def chunksExact (n : Nat) (bytes : List UInt8) : List (List UInt8) :=
  if 0 < n ∧ n ≤ bytes.length then bytes.take n :: chunksExact n (bytes.drop n) else []
termination_by bytes.length
decreasing_by
  rw [List.length_drop]
  omega

/-- The order in which a machine stores the bytes of a number. -/
inductive ByteOrder where
  | little
  | big
  deriving DecidableEq, Repr

/-- `to_ne_bytes`. -/
def neBytes : ByteOrder → Nat → Nat → List UInt8
  | .little => leBytes
  | .big => beBytes

/-- `from_ne_bytes`. -/
def ofNeBytes : ByteOrder → List UInt8 → Nat
  | .little => ofLeBytes
  | .big => ofBeBytes

variable {n v : Nat} {bytes : List UInt8} {order : ByteOrder}

@[simp] theorem ofLeBytes_nil : ofLeBytes [] = 0 := rfl

@[simp] theorem ofLeBytes_cons (b : UInt8) (bytes : List UInt8) :
    ofLeBytes (b :: bytes) = b.toNat + 256 * ofLeBytes bytes := rfl

/-! ## Lengths -/

@[simp] theorem length_leBytes (n v : Nat) : (leBytes n v).length = n := by
  induction n generalizing v with
  | zero => rfl
  | succ n ih => rw [leBytes, List.length_cons, ih]

@[simp] theorem length_beBytes (n v : Nat) : (beBytes n v).length = n := by
  rw [beBytes, List.length_reverse, length_leBytes]

@[simp] theorem length_neBytes (order : ByteOrder) (n v : Nat) :
    (neBytes order n v).length = n := by
  cases order with
  | little => exact length_leBytes n v
  | big => exact length_beBytes n v

/-! ## Parts -/

theorem byteRange_of_eq (front : List UInt8) {mid rest : List UInt8} {start stop : Nat}
    (hbytes : bytes = front ++ (mid ++ rest)) (hstart : front.length = start)
    (hstop : start + mid.length = stop) : byteRange bytes start stop = mid := by
  rw [byteRange, hbytes, List.drop_left' hstart, List.take_left' (by omega)]

theorem byteRange_append_right {front rest : List UInt8} {start stop : Nat}
    (h : front.length ≤ start) :
    byteRange (front ++ rest) start stop =
      byteRange rest (start - front.length) (stop - front.length) := by
  have hstop : stop - front.length - (start - front.length) = stop - start := by omega
  rw [byteRange, byteRange, List.drop_append, List.drop_of_length_le h, List.nil_append, hstop]

theorem byteRange_append_left {front rest : List UInt8} {stop : Nat} (h : front.length = stop) :
    byteRange (front ++ rest) 0 stop = front :=
  byteRange_of_eq [] rfl rfl (by omega)

theorem byteRange_append_add (front rest : List UInt8) (start stop : Nat) :
    byteRange (front ++ rest) (front.length + start) (front.length + stop) =
      byteRange rest start stop := by
  rw [byteRange_append_right (Nat.le_add_right _ _), Nat.add_sub_cancel_left,
    Nat.add_sub_cancel_left]

theorem isInfix_byteRange (buf : List UInt8) (start stop : Nat) :
    byteRange buf start stop <:+: buf :=
  (List.take_prefix _ _).isInfix.trans (List.drop_suffix _ _).isInfix

theorem length_byteRange {start stop : Nat} (h : stop ≤ bytes.length) :
    (byteRange bytes start stop).length = stop - start := by
  rw [byteRange, List.length_take, List.length_drop]
  omega

theorem slice_eq {buf : List UInt8} {start stop : Nat} (h : start ≤ stop)
    (h' : stop ≤ buf.length) : slice buf start stop = some (byteRange buf start stop) :=
  if_pos ⟨h, h'⟩

theorem setByte_append (front : List UInt8) (old b : UInt8) (rest : List UInt8) {i : Nat}
    (hi : front.length = i) :
    setByte (front ++ (old :: rest)) i b = some (front ++ (b :: rest)) := by
  have hlt : i < (front ++ (old :: rest)).length := by
    rw [List.length_append, List.length_cons]
    omega
  rw [setByte, if_pos hlt, ← hi, List.set_append_right _ _ (Nat.le_refl _), Nat.sub_self]
  rfl

theorem copyFromSlice_append (front old rest src : List UInt8) {start stop : Nat}
    (hstart : front.length = start) (hstop : start + old.length = stop)
    (hsrc : src.length = old.length) :
    copyFromSlice (front ++ (old ++ rest)) start stop src = some (front ++ (src ++ rest)) := by
  have hdrop : (front ++ (old ++ rest)).drop stop = rest := by
    rw [← List.append_assoc, List.drop_left' (by rw [List.length_append]; omega)]
  have hlen : stop ≤ (front ++ (old ++ rest)).length := by
    rw [List.length_append, List.length_append]
    omega
  rw [copyFromSlice, if_pos ⟨by omega, hlen, by omega⟩, List.take_left' hstart, hdrop]

theorem slice_append (front mid rest : List UInt8) {start stop : Nat}
    (hstart : front.length = start) (hstop : start + mid.length = stop) :
    slice (front ++ (mid ++ rest)) start stop = some mid := by
  have hlen : stop ≤ (front ++ (mid ++ rest)).length := by
    rw [List.length_append, List.length_append]
    omega
  rw [slice_eq (by omega) hlen, byteRange_of_eq front rfl hstart hstop]

/-! ## Chunks -/

theorem chunksExact_append_of_length (front rest : List UInt8) (hn : 0 < n)
    (hfront : front.length = n) :
    chunksExact n (front ++ rest) = front :: chunksExact n rest := by
  rw [chunksExact, if_pos ⟨hn, by rw [List.length_append]; omega⟩, List.take_left' hfront,
    List.drop_left' hfront]

theorem chunksExact_of_length_lt (h : bytes.length < n) : chunksExact n bytes = [] := by
  rw [chunksExact, if_neg (by omega)]

theorem chunksExact_singleton (hn : 0 < n) (hlen : bytes.length = n) :
    chunksExact n bytes = [bytes] := by
  have h := chunksExact_append_of_length bytes [] hn hlen
  rwa [List.append_nil, chunksExact_of_length_lt (show ([] : List UInt8).length < n from hn)] at h

/-- Chunks are those of the parts, if the parts are made of whole ones. -/
theorem chunksExact_append {front : List UInt8} (hn : 0 < n) (hfront : front.length % n = 0)
    (rest : List UInt8) :
    chunksExact n (front ++ rest) = chunksExact n front ++ chunksExact n rest := by
  fun_induction chunksExact n front with
  | case1 front hle ih =>
    have htake : (front.take n).length = n := List.length_take_of_le hle.2
    have hdrop : (front.drop n).length % n = 0 := by
      rw [List.length_drop, ← Nat.mod_eq_sub_mod hle.2, hfront]
    have hsplit : front ++ rest = front.take n ++ (front.drop n ++ rest) := by
      rw [← List.append_assoc, List.take_append_drop]
    rw [hsplit, chunksExact_append_of_length _ _ hn htake, ih hdrop, List.cons_append]
  | case2 front hlt =>
    have hnil : front = [] := by
      rw [Nat.mod_eq_of_lt (by omega)] at hfront
      exact List.length_eq_zero_iff.mp hfront
    rw [hnil, List.nil_append, List.nil_append]

theorem length_of_mem_chunksExact {chunk : List UInt8} (h : chunk ∈ chunksExact n bytes) :
    chunk.length = n := by
  fun_induction chunksExact n bytes with
  | case1 bytes hle ih =>
    rcases List.mem_cons.mp h with rfl | h
    · exact List.length_take_of_le hle.2
    · exact ih h
  | case2 bytes hlt => cases h

theorem length_chunksExact_le (n : Nat) (bytes : List UInt8) :
    (chunksExact n bytes).length * n ≤ bytes.length := by
  fun_induction chunksExact n bytes with
  | case1 bytes hle ih =>
    rw [List.length_drop] at ih
    rw [List.length_cons, Nat.succ_mul]
    omega
  | case2 bytes hlt => simp

/-! ## Numbers in parts -/

/-- The first bytes of a number are those of its upper part. -/
theorem leBytes_add (m n v : Nat) :
    leBytes (m + n) v = leBytes m v ++ leBytes n (v / 256 ^ m) := by
  induction m generalizing v with
  | zero => simp [leBytes]
  | succ m ih =>
    have hdiv : v / 256 / 256 ^ m = v / 256 ^ (m + 1) := by
      rw [Nat.div_div_eq_div_mul, pow_succ, Nat.mul_comm]
    rw [Nat.succ_add, leBytes, leBytes, ih, List.cons_append, hdiv]

theorem beBytes_add (m n v : Nat) :
    beBytes (m + n) v = beBytes n (v / 256 ^ m) ++ beBytes m v := by
  rw [beBytes, leBytes_add, List.reverse_append, beBytes, beBytes]

/-! ## Reading what was written -/

theorem ofLeBytes_leBytes (hv : v < 256 ^ n) : ofLeBytes (leBytes n v) = v := by
  induction n generalizing v with
  | zero =>
    rw [pow_zero] at hv
    rw [leBytes, ofLeBytes_nil]
    omega
  | succ n ih =>
    have hdiv : v / 256 < 256 ^ n := by
      rw [pow_succ] at hv
      omega
    rw [leBytes, ofLeBytes_cons, ih hdiv, UInt8.toNat_ofNat']
    omega

theorem ofBeBytes_beBytes (hv : v < 256 ^ n) : ofBeBytes (beBytes n v) = v := by
  rw [ofBeBytes, beBytes, List.reverse_reverse, ofLeBytes_leBytes hv]

theorem ofNeBytes_neBytes (hv : v < 256 ^ n) : ofNeBytes order (neBytes order n v) = v := by
  cases order with
  | little => exact ofLeBytes_leBytes hv
  | big => exact ofBeBytes_beBytes hv

/-! ## Writing what was read -/

theorem leBytes_ofLeBytes (bytes : List UInt8) :
    leBytes bytes.length (ofLeBytes bytes) = bytes := by
  induction bytes with
  | nil => rfl
  | cons b bytes ih =>
    have hb := b.toNat_lt
    have hhead : UInt8.ofNat (b.toNat + 256 * ofLeBytes bytes) = b := by
      rw [← UInt8.toNat_inj, UInt8.toNat_ofNat']
      omega
    have htail : (b.toNat + 256 * ofLeBytes bytes) / 256 = ofLeBytes bytes := by omega
    rw [List.length_cons, ofLeBytes_cons, leBytes, hhead, htail, ih]

theorem beBytes_ofBeBytes (hlen : bytes.length = n) : beBytes n (ofBeBytes bytes) = bytes := by
  have h := leBytes_ofLeBytes bytes.reverse
  rw [List.length_reverse, hlen] at h
  rw [beBytes, ofBeBytes, h, List.reverse_reverse]

theorem ofLeBytes_lt (bytes : List UInt8) : ofLeBytes bytes < 256 ^ bytes.length := by
  induction bytes with
  | nil => exact Nat.one_pos
  | cons b bytes ih =>
    have hb := b.toNat_lt
    rw [ofLeBytes_cons, List.length_cons, pow_succ]
    omega

theorem ofBeBytes_lt (bytes : List UInt8) : ofBeBytes bytes < 256 ^ bytes.length := by
  have h := ofLeBytes_lt bytes.reverse
  rwa [List.length_reverse] at h

theorem ofNeBytes_lt (order : ByteOrder) (bytes : List UInt8) :
    ofNeBytes order bytes < 256 ^ bytes.length := by
  cases order with
  | little => exact ofLeBytes_lt bytes
  | big => exact ofBeBytes_lt bytes

end Bytes
