import Flannel.Lib.Results
import Flannel.Lib.Text

/-!
# The bytes of a text

`str::as_bytes`, and that the two readers of UTF-8 undo it: the bytes of a text are read as
that text, strictly and lossily.  The other way round, the strict reader accepts nothing but
the bytes of a text, and the lossy one keeps its input exactly where the strict one accepts
it.

Both directions go through `IsEncoding`, which says of a character and some bytes what the
readers look at: the width that the first byte announces and the ranges of the others.

A program that looks for ASCII in the bytes finds the characters that it looks for, as no other
character has a byte of ASCII (`byte_mem_encode_iff`, `exists_lead`).
-/

namespace Text

open Results

/-- `str::as_bytes`. -/
def asBytes (s : String) : List UInt8 := s.toList.flatMap String.utf8EncodeChar

variable {a b : UInt8} {n : Nat}

/-! ## The ranges of the bytes -/

theorem utf8CharWidth_eq_one_iff : utf8CharWidth b = 1 ↔ b.toNat < 0x80 := by
  simp only [utf8CharWidth, UInt8.lt_iff_toNat_lt, UInt8.le_iff_toNat_le, UInt8.reduceToNat]
  grind

theorem utf8CharWidth_eq_two_iff : utf8CharWidth b = 2 ↔ 0xc2 ≤ b.toNat ∧ b.toNat ≤ 0xdf := by
  simp only [utf8CharWidth, UInt8.lt_iff_toNat_lt, UInt8.le_iff_toNat_le, UInt8.reduceToNat]
  grind

theorem utf8CharWidth_eq_three_iff : utf8CharWidth b = 3 ↔ 0xe0 ≤ b.toNat ∧ b.toNat ≤ 0xef := by
  simp only [utf8CharWidth, UInt8.lt_iff_toNat_lt, UInt8.le_iff_toNat_le, UInt8.reduceToNat]
  grind

theorem utf8CharWidth_eq_four_iff : utf8CharWidth b = 4 ↔ 0xf0 ≤ b.toNat ∧ b.toNat ≤ 0xf4 := by
  simp only [utf8CharWidth, UInt8.lt_iff_toNat_lt, UInt8.le_iff_toNat_le, UInt8.reduceToNat]
  grind

theorem isContinuation_iff : isContinuation b = true ↔ 0x80 ≤ b.toNat ∧ b.toNat ≤ 0xbf := by
  simp only [isContinuation, Bool.and_eq_true, decide_eq_true_eq, UInt8.le_iff_toNat_le,
    UInt8.reduceToNat]

theorem isSecond_iff : isSecond a b = true ↔ 0x80 ≤ b.toNat ∧ b.toNat ≤ 0xbf ∧
    (a.toNat = 0xe0 → 0xa0 ≤ b.toNat) ∧ (a.toNat = 0xed → b.toNat ≤ 0x9f) ∧
    (a.toNat = 0xf0 → 0x90 ≤ b.toNat) ∧ (a.toNat = 0xf4 → b.toNat ≤ 0x8f) := by
  simp only [isSecond, isContinuation, ← UInt8.toNat_inj, UInt8.le_iff_toNat_le,
    UInt8.reduceToNat]
  split_ifs <;> simp only [Bool.and_eq_true, decide_eq_true_eq] <;> omega

/-! ## One character -/

/-- Bytes that both readers take for one character. -/
inductive IsEncoding : Char → List UInt8 → Prop
  | one (a : UInt8) (ha : utf8CharWidth a = 1) : IsEncoding (Char.ofNat a.toNat) [a]
  | two (a b : UInt8) (ha : utf8CharWidth a = 2) (hb : isContinuation b = true) :
      IsEncoding (Char.ofNat (utf8Push (a.toNat % 32) b)) [a, b]
  | three (a b c : UInt8) (ha : utf8CharWidth a = 3) (hb : isSecond a b = true)
      (hc : isContinuation c = true) :
      IsEncoding (Char.ofNat (utf8Push (utf8Push (a.toNat % 16) b) c)) [a, b, c]
  | four (a b c d : UInt8) (ha : utf8CharWidth a = 4) (hb : isSecond a b = true)
      (hc : isContinuation c = true) (hd : isContinuation d = true) :
      IsEncoding (Char.ofNat (utf8Push (utf8Push (utf8Push (a.toNat % 8) b) c) d)) [a, b, c, d]

theorem toNat_ofNat_byte (h : n < 256) : (UInt8.ofNat n).toNat = n :=
  UInt8.toNat_ofNat_of_lt' h

theorem ofNat_eq_byte (h : n = b.toNat) : UInt8.ofNat n = b := by
  rw [h, UInt8.ofNat_toNat]

theorem toNat_ofNat_char (h : n < 0xd800 ∨ (0xdfff < n ∧ n < 0x110000)) :
    (Char.ofNat n).toNat = n := by
  rw [Char.ofNat, dif_pos h]
  rfl

/-- `char::encode_utf8`, with the four lengths as the ranges of the code point. -/
theorem utf8EncodeChar_eq (c : Char) :
    String.utf8EncodeChar c =
      if c.toNat ≤ 0x7f then [UInt8.ofNat c.toNat]
      else if c.toNat ≤ 0x7ff then
        [UInt8.ofNat (c.toNat / 64 % 32 + 0xc0), UInt8.ofNat (c.toNat % 64 + 0x80)]
      else if c.toNat ≤ 0xffff then
        [UInt8.ofNat (c.toNat / 4096 % 16 + 0xe0), UInt8.ofNat (c.toNat / 64 % 64 + 0x80),
          UInt8.ofNat (c.toNat % 64 + 0x80)]
      else
        [UInt8.ofNat (c.toNat / 262144 % 8 + 0xf0), UInt8.ofNat (c.toNat / 4096 % 64 + 0x80),
          UInt8.ofNat (c.toNat / 64 % 64 + 0x80), UInt8.ofNat (c.toNat % 64 + 0x80)] := rfl

theorem eq_utf8EncodeChar {c : Char} {bytes : List UInt8} (h : IsEncoding c bytes) :
    bytes = String.utf8EncodeChar c := by
  cases h with
  | one a ha =>
    rw [utf8CharWidth_eq_one_iff] at ha
    rw [utf8EncodeChar_eq, toNat_ofNat_char (by omega), if_pos (by omega), UInt8.ofNat_toNat]
  | two a b ha hb =>
    rw [utf8CharWidth_eq_two_iff] at ha
    rw [isContinuation_iff] at hb
    unfold utf8Push
    rw [utf8EncodeChar_eq, toNat_ofNat_char (by omega), if_neg (by omega), if_pos (by omega),
      ofNat_eq_byte (b := a) (by omega), ofNat_eq_byte (b := b) (by omega)]
  | three a b c ha hb hc =>
    rw [utf8CharWidth_eq_three_iff] at ha
    rw [isSecond_iff] at hb
    rw [isContinuation_iff] at hc
    unfold utf8Push
    rw [utf8EncodeChar_eq, toNat_ofNat_char (by omega), if_neg (by omega), if_neg (by omega),
      if_pos (by omega), ofNat_eq_byte (b := a) (by omega), ofNat_eq_byte (b := b) (by omega),
      ofNat_eq_byte (b := c) (by omega)]
  | four a b c d ha hb hc hd =>
    rw [utf8CharWidth_eq_four_iff] at ha
    rw [isSecond_iff] at hb
    rw [isContinuation_iff] at hc hd
    unfold utf8Push
    rw [utf8EncodeChar_eq, toNat_ofNat_char (by omega), if_neg (by omega), if_neg (by omega),
      if_neg (by omega), ofNat_eq_byte (b := a) (by omega), ofNat_eq_byte (b := b) (by omega),
      ofNat_eq_byte (b := c) (by omega), ofNat_eq_byte (b := d) (by omega)]

theorem isEncoding_utf8EncodeChar (c : Char) : IsEncoding c (String.utf8EncodeChar c) := by
  have hvalid : c.toNat < 0xd800 ∨ (0xdfff < c.toNat ∧ c.toNat < 0x110000) := c.valid
  rw [utf8EncodeChar_eq]
  split_ifs with h₁ h₂ h₃
  · have hbyte := toNat_ofNat_byte (n := c.toNat) (by omega)
    have h := IsEncoding.one (UInt8.ofNat c.toNat) (by rw [utf8CharWidth_eq_one_iff]; omega)
    rwa [hbyte, Char.ofNat_toNat] at h
  · have ha := toNat_ofNat_byte (n := c.toNat / 64 % 32 + 0xc0) (by omega)
    have hb := toNat_ofNat_byte (n := c.toNat % 64 + 0x80) (by omega)
    have h := IsEncoding.two (UInt8.ofNat (c.toNat / 64 % 32 + 0xc0))
      (UInt8.ofNat (c.toNat % 64 + 0x80)) (by rw [utf8CharWidth_eq_two_iff]; omega)
      (by rw [isContinuation_iff]; omega)
    have hc : utf8Push ((UInt8.ofNat (c.toNat / 64 % 32 + 0xc0)).toNat % 32)
        (UInt8.ofNat (c.toNat % 64 + 0x80)) = c.toNat := by
      unfold utf8Push
      omega
    rwa [hc, Char.ofNat_toNat] at h
  · have ha := toNat_ofNat_byte (n := c.toNat / 4096 % 16 + 0xe0) (by omega)
    have hb := toNat_ofNat_byte (n := c.toNat / 64 % 64 + 0x80) (by omega)
    have hc := toNat_ofNat_byte (n := c.toNat % 64 + 0x80) (by omega)
    have h := IsEncoding.three (UInt8.ofNat (c.toNat / 4096 % 16 + 0xe0))
      (UInt8.ofNat (c.toNat / 64 % 64 + 0x80)) (UInt8.ofNat (c.toNat % 64 + 0x80))
      (by rw [utf8CharWidth_eq_three_iff]; omega) (by rw [isSecond_iff]; omega)
      (by rw [isContinuation_iff]; omega)
    have heq : utf8Push (utf8Push ((UInt8.ofNat (c.toNat / 4096 % 16 + 0xe0)).toNat % 16)
        (UInt8.ofNat (c.toNat / 64 % 64 + 0x80))) (UInt8.ofNat (c.toNat % 64 + 0x80)) =
        c.toNat := by
      unfold utf8Push
      omega
    rwa [heq, Char.ofNat_toNat] at h
  · have ha := toNat_ofNat_byte (n := c.toNat / 262144 % 8 + 0xf0) (by omega)
    have hb := toNat_ofNat_byte (n := c.toNat / 4096 % 64 + 0x80) (by omega)
    have hc := toNat_ofNat_byte (n := c.toNat / 64 % 64 + 0x80) (by omega)
    have hd := toNat_ofNat_byte (n := c.toNat % 64 + 0x80) (by omega)
    have h := IsEncoding.four (UInt8.ofNat (c.toNat / 262144 % 8 + 0xf0))
      (UInt8.ofNat (c.toNat / 4096 % 64 + 0x80)) (UInt8.ofNat (c.toNat / 64 % 64 + 0x80))
      (UInt8.ofNat (c.toNat % 64 + 0x80))
      (by rw [utf8CharWidth_eq_four_iff]; omega) (by rw [isSecond_iff]; omega)
      (by rw [isContinuation_iff]; omega) (by rw [isContinuation_iff]; omega)
    have heq : utf8Push (utf8Push (utf8Push
        ((UInt8.ofNat (c.toNat / 262144 % 8 + 0xf0)).toNat % 8)
        (UInt8.ofNat (c.toNat / 4096 % 64 + 0x80))) (UInt8.ofNat (c.toNat / 64 % 64 + 0x80)))
        (UInt8.ofNat (c.toNat % 64 + 0x80)) = c.toNat := by
      unfold utf8Push
      omega
    rwa [heq, Char.ofNat_toNat] at h

theorem utf8Pieces_of_isEncoding {c : Char} {bytes : List UInt8} (h : IsEncoding c bytes)
    (rest : List UInt8) :
    ∃ len, utf8Pieces (bytes ++ rest) = .char c len :: utf8Pieces rest := by
  cases h with
  | one a ha =>
    refine ⟨1, ?_⟩
    rw [List.singleton_append, utf8Pieces.eq_def]
    simp only [ha]
  | two a b ha hb =>
    refine ⟨2, ?_⟩
    rw [List.cons_append, utf8Pieces.eq_def]
    simp [ha, hb]
  | three a b c ha hb hc =>
    refine ⟨3, ?_⟩
    rw [List.cons_append, utf8Pieces.eq_def]
    simp [ha, hb, hc]
  | four a b c d ha hb hc hd =>
    refine ⟨4, ?_⟩
    rw [List.cons_append, utf8Pieces.eq_def]
    simp [ha, hb, hc, hd]

/-! ## Texts -/

theorem utf8Chars_encoded (cs : List Char) (index : Nat) :
    utf8Chars index (utf8Pieces (cs.flatMap String.utf8EncodeChar)) = .ok cs := by
  induction cs generalizing index with
  | nil => rfl
  | cons c cs ih =>
    obtain ⟨len, hlen⟩ := utf8Pieces_of_isEncoding (isEncoding_utf8EncodeChar c)
      (cs.flatMap String.utf8EncodeChar)
    rw [List.flatMap_cons, hlen, utf8Chars, ih]
    rfl

theorem encoded_cons {c : Char} {len index : Nat} {front rest : List UInt8} {cs : List Char}
    (hfront : IsEncoding c front)
    (ih : ∀ {index : Nat} {cs : List Char}, utf8Chars index (utf8Pieces rest) = .ok cs →
      cs.flatMap String.utf8EncodeChar = rest)
    (h : utf8Chars index (.char c len :: utf8Pieces rest) = .ok cs) :
    cs.flatMap String.utf8EncodeChar = front ++ rest := by
  obtain ⟨tail, htail, rfl⟩ := map_ok_iff.mp h
  rw [List.flatMap_cons, ih htail, ← eq_utf8EncodeChar hfront]

/-- The strict reader accepts nothing but encoded characters. -/
theorem encoded_of_utf8Chars {bytes : List UInt8} {index : Nat} {cs : List Char}
    (h : utf8Chars index (utf8Pieces bytes) = .ok cs) :
    cs.flatMap String.utf8EncodeChar = bytes := by
  -- every case but those of a whole character leaves a piece that the reader refuses
  fun_induction utf8Pieces bytes generalizing index cs with
  | case1 =>
    cases h
    rfl
  | case2 a bs ha ih => exact encoded_cons (.one a ha) ih h
  | case4 a ha b bs hb ih => exact encoded_cons (.two a b ha hb) ih h
  | case8 a ha b hb c bs hc ih => exact encoded_cons (.three a b c ha hb hc) ih h
  | case14 a ha b hb c hc d bs hd ih => exact encoded_cons (.four a b c d ha hb hc hd) ih h
  | _ => cases h

theorem fromUtf8_asBytes (s : String) : fromUtf8 (asBytes s) = .ok s := by
  rw [fromUtf8, asBytes, utf8Chars_encoded]
  exact congrArg Except.ok String.ofList_toList

theorem asBytes_of_fromUtf8 {bytes : List UInt8} {s : String} (h : fromUtf8 bytes = .ok s) :
    asBytes s = bytes := by
  obtain ⟨cs, hcs, rfl⟩ := map_ok_iff.mp h
  rw [asBytes, String.toList_ofList]
  exact encoded_of_utf8Chars hcs

theorem map_eq_of_utf8Chars {f : Utf8Piece → Char} (hf : ∀ c len, f (.char c len) = c)
    {pieces : List Utf8Piece} {index : Nat} {cs : List Char}
    (h : utf8Chars index pieces = .ok cs) : pieces.map f = cs := by
  induction pieces generalizing index cs with
  | nil =>
    cases h
    rfl
  | cons piece pieces ih =>
    cases piece with
    | char c len =>
      obtain ⟨tail, htail, rfl⟩ := map_ok_iff.mp h
      rw [List.map_cons, hf, ih htail]
    | invalid len => cases h
    | incomplete => cases h

theorem fromUtf8Lossy_of_fromUtf8 {bytes : List UInt8} {s : String} (h : fromUtf8 bytes = .ok s) :
    fromUtf8Lossy bytes = s := by
  obtain ⟨cs, hcs, rfl⟩ := map_ok_iff.mp h
  exact congrArg String.ofList (map_eq_of_utf8Chars (fun _ _ => rfl) hcs)

theorem fromUtf8Lossy_asBytes (s : String) : fromUtf8Lossy (asBytes s) = s :=
  fromUtf8Lossy_of_fromUtf8 (fromUtf8_asBytes s)

/-- **The lossy reader loses nothing exactly where the strict one accepts.** -/
theorem asBytes_fromUtf8Lossy_iff {bytes : List UInt8} :
    asBytes (fromUtf8Lossy bytes) = bytes ↔ (fromUtf8 bytes).isOk = true := by
  constructor
  · intro h
    rw [← h, fromUtf8_asBytes]
    rfl
  · intro h
    cases hs : fromUtf8 bytes with
    | error e =>
      rw [hs] at h
      cases h
    | ok s => rw [fromUtf8Lossy_of_fromUtf8 hs, asBytes_of_fromUtf8 hs]

/-! ## Texts that are cut off -/

theorem utf8Pieces_incomplete {c : Char} {front rest : List UInt8}
    (h : IsEncoding c (front ++ rest)) (hfront : front ≠ []) (hrest : rest ≠ []) :
    utf8Pieces front = [.incomplete] := by
  obtain ⟨a, front, rfl⟩ := List.exists_cons_of_ne_nil hfront
  obtain ⟨z, rest, rfl⟩ := List.exists_cons_of_ne_nil hrest
  generalize hbytes : a :: front ++ z :: rest = bytes at h
  cases h with
  | one a ha => simp at hbytes
  | two a b ha hb =>
    obtain ⟨rfl, htail⟩ := List.cons.inj hbytes
    rcases front with _ | ⟨x, front⟩
    · rw [utf8Pieces.eq_def]
      simp [ha]
    · simp at htail
  | three a b c ha hb hc =>
    obtain ⟨rfl, htail⟩ := List.cons.inj hbytes
    rcases front with _ | ⟨x, _ | ⟨y, front⟩⟩
    · rw [utf8Pieces.eq_def]
      simp [ha]
    · obtain ⟨rfl, -⟩ := List.cons.inj htail
      rw [utf8Pieces.eq_def]
      simp [ha, hb]
    · simp at htail
  | four a b c d ha hb hc hd =>
    obtain ⟨rfl, htail⟩ := List.cons.inj hbytes
    rcases front with _ | ⟨x, _ | ⟨y, _ | ⟨w, front⟩⟩⟩
    · rw [utf8Pieces.eq_def]
      simp [ha]
    · obtain ⟨rfl, -⟩ := List.cons.inj htail
      rw [utf8Pieces.eq_def]
      simp [ha, hb]
    · obtain ⟨rfl, htail'⟩ := List.cons.inj htail
      obtain ⟨rfl, -⟩ := List.cons.inj htail'
      rw [utf8Pieces.eq_def]
      simp [ha, hb, hc]
    · simp at htail

theorem asBytes_fromUtf8Lossy_encodeChar (c : Char) (rest : List UInt8) :
    asBytes (fromUtf8Lossy (String.utf8EncodeChar c ++ rest)) =
      String.utf8EncodeChar c ++ asBytes (fromUtf8Lossy rest) := by
  obtain ⟨len, hlen⟩ := utf8Pieces_of_isEncoding (isEncoding_utf8EncodeChar c) rest
  rw [fromUtf8Lossy, fromUtf8Lossy, hlen, asBytes, asBytes, String.toList_ofList,
    String.toList_ofList, List.map_cons, List.flatMap_cons]

/-- What is cut off a text in UTF-8 grows by two bytes at most when it is read lossily: only
its last character can be incomplete. -/
theorem length_asBytes_fromUtf8Lossy_le {bytes : List UInt8} {cs : List Char}
    (h : bytes <+: cs.flatMap String.utf8EncodeChar) :
    (asBytes (fromUtf8Lossy bytes)).length ≤ bytes.length + 2 := by
  induction cs generalizing bytes with
  | nil =>
    rw [List.flatMap_nil, List.prefix_nil] at h
    subst h
    decide
  | cons c cs ih =>
    rw [List.flatMap_cons] at h
    by_cases hwhole : String.utf8EncodeChar c <+: bytes
    · obtain ⟨rest, rfl⟩ := hwhole
      have hrest := ih ((List.prefix_append_right_inj _).mp h)
      rw [asBytes_fromUtf8Lossy_encodeChar, List.length_append, List.length_append]
      omega
    · -- the bytes end within this character
      obtain ⟨rest, hrest⟩ :=
        (List.prefix_or_prefix_of_prefix h (List.prefix_append _ _)).resolve_right hwhole
      rcases eq_or_ne bytes [] with rfl | hbytes
      · decide
      have hne : rest ≠ [] := by
        rintro rfl
        exact hwhole ⟨[], by rw [← hrest, List.append_nil, List.append_nil]⟩
      have hpieces := utf8Pieces_incomplete (hrest ▸ isEncoding_utf8EncodeChar c) hbytes hne
      have hlossy : asBytes (fromUtf8Lossy bytes) = [0xef, 0xbf, 0xbd] := by
        rw [fromUtf8Lossy, hpieces]
        decide
      have hlen := List.length_pos_of_ne_nil hbytes
      rw [hlossy]
      change 3 ≤ _
      omega

/-! ## ASCII -/

/-- A byte literal: the byte of an ASCII character. -/
def byte (c : Char) : UInt8 := UInt8.ofNat c.toNat

/-- The bytes of some characters. -/
def encode (cs : List Char) : List UInt8 := cs.flatMap String.utf8EncodeChar

@[simp] theorem encode_nil : encode [] = [] := rfl

theorem encode_cons (c : Char) (cs : List Char) :
    encode (c :: cs) = String.utf8EncodeChar c ++ encode cs := List.flatMap_cons

theorem encode_append (cs ds : List Char) : encode (cs ++ ds) = encode cs ++ encode ds :=
  List.flatMap_append

theorem asBytes_ofList (cs : List Char) : asBytes (String.ofList cs) = encode cs := by
  rw [asBytes, String.toList_ofList, encode]

theorem utf8EncodeChar_of_lt {c : Char} (h : c.toNat < 0x80) :
    String.utf8EncodeChar c = [byte c] := by
  rw [utf8EncodeChar_eq, if_pos (by omega), byte]

theorem encode_cons_of_lt {c : Char} (h : c.toNat < 0x80) (cs : List Char) :
    encode (c :: cs) = byte c :: encode cs := by
  rw [encode_cons, utf8EncodeChar_of_lt h, List.singleton_append]

theorem toNat_byte {c : Char} (h : c.toNat < 0x80) : (byte c).toNat = c.toNat :=
  toNat_ofNat_byte (by omega)

theorem IsEncoding.le_of_mem {c : Char} {bytes : List UInt8} (h : IsEncoding c bytes)
    (hascii : 0x80 ≤ c.toNat) : ∀ b ∈ bytes, 0x80 ≤ b.toNat := by
  cases h with
  | one a ha =>
    rw [utf8CharWidth_eq_one_iff] at ha
    rw [toNat_ofNat_char (by omega)] at hascii
    omega
  | two a b ha hb =>
    rw [utf8CharWidth_eq_two_iff] at ha
    rw [isContinuation_iff] at hb
    simp only [List.forall_mem_cons, List.not_mem_nil, false_implies, implies_true, and_true]
    omega
  | three a b c ha hb hc =>
    rw [utf8CharWidth_eq_three_iff] at ha
    rw [isSecond_iff] at hb
    rw [isContinuation_iff] at hc
    simp only [List.forall_mem_cons, List.not_mem_nil, false_implies, implies_true, and_true]
    omega
  | four a b c d ha hb hc hd =>
    rw [utf8CharWidth_eq_four_iff] at ha
    rw [isSecond_iff] at hb
    rw [isContinuation_iff] at hc hd
    simp only [List.forall_mem_cons, List.not_mem_nil, false_implies, implies_true, and_true]
    omega

/-- A character outside ASCII has no byte of ASCII. -/
theorem le_of_mem_utf8EncodeChar {c : Char} (h : 0x80 ≤ c.toNat)
    (hb : b ∈ String.utf8EncodeChar c) : 0x80 ≤ b.toNat :=
  (isEncoding_utf8EncodeChar c).le_of_mem h b hb

/-- The first byte of a character tells which one it is, if it is one of ASCII. -/
theorem exists_lead (c : Char) :
    ∃ b bs, String.utf8EncodeChar c = b :: bs ∧
      (b.toNat = c.toNat ∨ 0x80 ≤ b.toNat ∧ 0x80 ≤ c.toNat) := by
  by_cases hascii : c.toNat < 0x80
  · exact ⟨byte c, [], utf8EncodeChar_of_lt hascii, .inl (toNat_byte hascii)⟩
  · cases hbytes : String.utf8EncodeChar c with
    | nil =>
      have hsize : c.utf8Size = 0 := by
        rw [← String.length_utf8EncodeChar, hbytes, List.length_nil]
      have hpos := c.utf8Size_pos
      omega
    | cons b bs =>
      have hmem : b ∈ String.utf8EncodeChar c := hbytes ▸ List.mem_cons_self
      exact ⟨b, bs, rfl, .inr ⟨le_of_mem_utf8EncodeChar (by omega) hmem, by omega⟩⟩

theorem encode_ne_nil {cs : List Char} (h : cs ≠ []) : encode cs ≠ [] := by
  obtain ⟨c, cs, rfl⟩ := List.exists_cons_of_ne_nil h
  obtain ⟨b, bs, hbytes, -⟩ := exists_lead c
  rw [encode_cons, hbytes]
  exact List.cons_ne_nil _ _

/-- The byte of an ASCII character stands for nothing but the character. -/
theorem byte_mem_encode_iff {a : Char} (ha : a.toNat < 0x80) {cs : List Char} :
    byte a ∈ encode cs ↔ a ∈ cs := by
  rw [encode, List.mem_flatMap]
  constructor
  · rintro ⟨c, hc, hb⟩
    by_cases hascii : c.toNat < 0x80
    · rw [utf8EncodeChar_of_lt hascii, List.mem_singleton] at hb
      have hnat := congrArg UInt8.toNat hb
      rw [toNat_byte ha, toNat_byte hascii] at hnat
      rwa [Char.toNat_inj.mp hnat]
    · have hle := le_of_mem_utf8EncodeChar (by omega) hb
      rw [toNat_byte ha] at hle
      omega
  · intro hmem
    exact ⟨a, hmem, by rw [utf8EncodeChar_of_lt ha]; exact List.mem_singleton_self _⟩

end Text
