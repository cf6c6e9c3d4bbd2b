import Mathlib.Data.List.Basic

/-!
# Base64

The standard alphabet with padding.  Three bytes are four digits; one or two bytes at the end are
two or three digits, and padding.  A decoder that is strict about the padding, and about the bits
of the last digit that stand for nothing, takes exactly the texts that an encoder writes
(`decode_eq_some_iff`).
-/

namespace Base64

/-- The character of a digit. -/
def char (n : Nat) : Char :=
  if n < 26 then Char.ofNat (65 + n)
  else if n < 52 then Char.ofNat (71 + n)
  else if n < 62 then Char.ofNat (n - 4)
  else if n = 62 then '+'
  else '/'

/-- The digit of a character. -/
def value (c : Char) : Option Nat :=
  if 65 ≤ c.toNat ∧ c.toNat ≤ 90 then some (c.toNat - 65)
  else if 97 ≤ c.toNat ∧ c.toNat ≤ 122 then some (c.toNat - 71)
  else if 48 ≤ c.toNat ∧ c.toNat ≤ 57 then some (c.toNat + 4)
  else if c = '+' then some 62
  else if c = '/' then some 63
  else none

/-- The text of some bytes. -/
def encode : List UInt8 → List Char
  | [] => []
  | [a] => [char (a.toNat / 4), char (a.toNat % 4 * 16), '=', '=']
  | [a, b] => [char (a.toNat / 4), char (a.toNat % 4 * 16 + b.toNat / 16),
      char (b.toNat % 16 * 4), '=']
  | a :: b :: c :: rest => char (a.toNat / 4) :: char (a.toNat % 4 * 16 + b.toNat / 16) ::
      char (b.toNat % 16 * 4 + c.toNat / 64) :: char (c.toNat % 64) :: encode rest

/-- The bytes of a text. -/
def decode : List Char → Option (List UInt8)
  | [] => some []
  | w :: x :: y :: z :: rest =>
    if rest = [] ∧ y = '=' ∧ z = '=' then do
      let v ← value w
      let u ← value x
      if u % 16 = 0 then some [UInt8.ofNat (v * 4 + u / 16)] else none
    else if rest = [] ∧ z = '=' then do
      let v ← value w
      let u ← value x
      let t ← value y
      if t % 4 = 0 then some [UInt8.ofNat (v * 4 + u / 16), UInt8.ofNat (u % 16 * 16 + t / 4)]
      else none
    else do
      let v ← value w
      let u ← value x
      let t ← value y
      let s ← value z
      let bytes ← decode rest
      some (UInt8.ofNat (v * 4 + u / 16) :: UInt8.ofNat (u % 16 * 16 + t / 4) ::
        UInt8.ofNat (t % 4 * 64 + s) :: bytes)
  | _ => none

/-! ## Digits -/

theorem value_char : ∀ {n : Nat}, n < 64 → value (char n) = some n := by
  decide

theorem char_ne_pad : ∀ {n : Nat}, n < 64 → char n ≠ '=' := by
  decide

theorem eq_char_of_value {c : Char} {n : Nat} (h : value c = some n) : n < 64 ∧ c = char n := by
  unfold value at h
  have hc : Char.ofNat c.toNat = c := Char.ofNat_toNat c
  split_ifs at h with hupper hlower hdigit hplus hslash
  · cases h
    refine ⟨by omega, ?_⟩
    rw [char, if_pos (by omega), show 65 + (c.toNat - 65) = c.toNat by omega, hc]
  · cases h
    refine ⟨by omega, ?_⟩
    rw [char, if_neg (by omega), if_pos (by omega),
      show 71 + (c.toNat - 71) = c.toNat by omega, hc]
  · cases h
    refine ⟨by omega, ?_⟩
    rw [char, if_neg (by omega), if_neg (by omega), if_pos (by omega),
      show c.toNat + 4 - 4 = c.toNat by omega, hc]
  · cases h
    exact ⟨by decide, hplus⟩
  · cases h
    exact ⟨by decide, hslash⟩

theorem ofNat_eq {b : UInt8} {n : Nat} (h : n = b.toNat) : UInt8.ofNat n = b := by
  rw [h, UInt8.ofNat_toNat]

/-! ## The decoder takes what the encoder writes -/

theorem decode_encode (bytes : List UInt8) : decode (encode bytes) = some bytes := by
  induction bytes using encode.induct with
  | case1 => rfl
  | case2 a =>
    have ha := a.toNat_lt
    have hlast : UInt8.ofNat (a.toNat / 4 * 4 + a.toNat % 4 * 16 / 16) = a := ofNat_eq (by omega)
    simp only [encode, decode, and_self, if_true, value_char (show a.toNat / 4 < 64 by omega),
      value_char (show a.toNat % 4 * 16 < 64 by omega), Option.bind_eq_bind, Option.bind_some,
      Nat.mul_mod_left, hlast]
  | case3 a b =>
    have ha := a.toNat_lt
    have hb := b.toNat_lt
    have hpad := char_ne_pad (show b.toNat % 16 * 4 < 64 by omega)
    have hfirst : UInt8.ofNat (a.toNat / 4 * 4 + (a.toNat % 4 * 16 + b.toNat / 16) / 16) = a :=
      ofNat_eq (by omega)
    have hlast : UInt8.ofNat ((a.toNat % 4 * 16 + b.toNat / 16) % 16 * 16 + b.toNat % 16 * 4 / 4) =
      b := ofNat_eq (by omega)
    simp only [encode, decode, hpad, false_and, and_false, if_false, and_self, if_true,
      value_char (show a.toNat / 4 < 64 by omega),
      value_char (show a.toNat % 4 * 16 + b.toNat / 16 < 64 by omega),
      value_char (show b.toNat % 16 * 4 < 64 by omega), Option.bind_eq_bind, Option.bind_some,
      Nat.mul_mod_left, hfirst, hlast]
  | case4 a b c rest ih =>
    have ha := a.toNat_lt
    have hb := b.toNat_lt
    have hc := c.toNat_lt
    have hpad := char_ne_pad (show c.toNat % 64 < 64 by omega)
    have hfirst : UInt8.ofNat (a.toNat / 4 * 4 + (a.toNat % 4 * 16 + b.toNat / 16) / 16) = a :=
      ofNat_eq (by omega)
    have hsecond : UInt8.ofNat ((a.toNat % 4 * 16 + b.toNat / 16) % 16 * 16 +
        (b.toNat % 16 * 4 + c.toNat / 64) / 4) = b := ofNat_eq (by omega)
    have hthird : UInt8.ofNat ((b.toNat % 16 * 4 + c.toNat / 64) % 4 * 64 + c.toNat % 64) = c :=
      ofNat_eq (by omega)
    simp only [encode, decode, hpad, and_false, if_false,
      value_char (show a.toNat / 4 < 64 by omega),
      value_char (show a.toNat % 4 * 16 + b.toNat / 16 < 64 by omega),
      value_char (show b.toNat % 16 * 4 + c.toNat / 64 < 64 by omega),
      value_char (show c.toNat % 64 < 64 by omega), ih, Option.bind_eq_bind, Option.bind_some,
      hfirst, hsecond, hthird]

/-- The bytes of the digits of a group. -/
theorem toNat_ofNat_lt {n : Nat} (h : n < 256) : (UInt8.ofNat n).toNat = n :=
  UInt8.toNat_ofNat_of_lt h

theorem encode_of_decode {text : List Char} {bytes : List UInt8} (h : decode text = some bytes) :
    encode bytes = text := by
  induction text using decode.induct generalizing bytes with
  | case1 =>
    cases h
    rfl
  | case2 w x y z rest hpads =>
    obtain ⟨rfl, rfl, rfl⟩ := hpads
    rw [decode, if_pos ⟨rfl, rfl, rfl⟩] at h
    obtain ⟨v, hvalue, hrest⟩ := Option.bind_eq_some_iff.mp h
    obtain ⟨u, huvalue, hlast⟩ := Option.bind_eq_some_iff.mp hrest
    obtain ⟨hv, hw⟩ := eq_char_of_value hvalue
    obtain ⟨hu, hx⟩ := eq_char_of_value huvalue
    split_ifs at hlast with hzero
    cases hlast
    rw [hw, hx]
    rw [encode, toNat_ofNat_lt (by omega), show (v * 4 + u / 16) / 4 = v by omega,
      show (v * 4 + u / 16) % 4 * 16 = u by omega]
  | case3 w x y z rest hpads hpad =>
    obtain ⟨rfl, rfl⟩ := hpad
    rw [decode, if_neg hpads, if_pos ⟨rfl, rfl⟩] at h
    obtain ⟨v, hvalue, hrest⟩ := Option.bind_eq_some_iff.mp h
    obtain ⟨u, huvalue, hrest'⟩ := Option.bind_eq_some_iff.mp hrest
    obtain ⟨t, htvalue, hlast⟩ := Option.bind_eq_some_iff.mp hrest'
    obtain ⟨hv, hw⟩ := eq_char_of_value hvalue
    obtain ⟨hu, hx⟩ := eq_char_of_value huvalue
    obtain ⟨ht, hy⟩ := eq_char_of_value htvalue
    split_ifs at hlast with hzero
    cases hlast
    rw [hw, hx, hy]
    rw [encode, toNat_ofNat_lt (by omega), toNat_ofNat_lt (by omega),
      show (v * 4 + u / 16) / 4 = v by omega,
      show (v * 4 + u / 16) % 4 * 16 + (u % 16 * 16 + t / 4) / 16 = u by omega,
      show (u % 16 * 16 + t / 4) % 16 * 4 = t by omega]
  | case4 w x y z rest hpads hpad ih =>
    rw [decode, if_neg hpads, if_neg hpad] at h
    obtain ⟨v, hvalue, hrest⟩ := Option.bind_eq_some_iff.mp h
    obtain ⟨u, huvalue, hrest'⟩ := Option.bind_eq_some_iff.mp hrest
    obtain ⟨t, htvalue, hrest''⟩ := Option.bind_eq_some_iff.mp hrest'
    obtain ⟨s, hsvalue, hlast⟩ := Option.bind_eq_some_iff.mp hrest''
    obtain ⟨more, hmore, hbytes⟩ := Option.bind_eq_some_iff.mp hlast
    obtain ⟨hv, hw⟩ := eq_char_of_value hvalue
    obtain ⟨hu, hx⟩ := eq_char_of_value huvalue
    obtain ⟨ht, hy⟩ := eq_char_of_value htvalue
    obtain ⟨hs, hz⟩ := eq_char_of_value hsvalue
    cases hbytes
    rw [hw, hx, hy, hz]
    rw [encode, toNat_ofNat_lt (by omega), toNat_ofNat_lt (by omega), toNat_ofNat_lt (by omega),
      show (v * 4 + u / 16) / 4 = v by omega,
      show (v * 4 + u / 16) % 4 * 16 + (u % 16 * 16 + t / 4) / 16 = u by omega,
      show (u % 16 * 16 + t / 4) % 16 * 4 + (t % 4 * 64 + s) / 64 = t by omega,
      show (t % 4 * 64 + s) % 64 = s by omega, ih hmore]
  | case5 text hnil hcons =>
    simp [decode] at h

theorem length_encode (bytes : List UInt8) :
    (encode bytes).length = 4 * ((bytes.length + 2) / 3) := by
  induction bytes using encode.induct with
  | case1 => rfl
  | case2 a => simp [encode]
  | case3 a b => simp [encode]
  | case4 a b c rest ih =>
    rw [encode]
    simp only [List.length_cons, ih]
    omega

end Base64
