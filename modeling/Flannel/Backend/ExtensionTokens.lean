import Flannel.Backend.ExtensionExpand

/-!
# What the expansion of a command writes

The loop of `expand` follows the tokens of its text.  The bytes it looks for are those of ASCII,
which stand for nothing but their characters, so that the first byte of a character passes the tests
that the character passes (`exists_tested_lead`) and a name found in the bytes is the name of the
token (`getShellName_token`).  What is written in the end are the values of the tokens in a row
(`expand_eq_tokens`).
-/

namespace Flannel

namespace Extension

open Text (byte encode)

/-! ## The first byte of a character -/

theorem isShellSpecialVar_iff {b : UInt8} : isShellSpecialVar b = true ↔ (b.toNat = 42 ∨
    b.toNat = 35 ∨ b.toNat = 36 ∨ b.toNat = 64 ∨ b.toNat = 33 ∨ b.toNat = 63 ∨ b.toNat = 45) ∨
    48 ≤ b.toNat ∧ b.toNat ≤ 57 := by
  simp only [isShellSpecialVar, Bool.or_eq_true, Bool.and_eq_true, decide_eq_true_eq,
    ← UInt8.toNat_inj, UInt8.le_iff_toNat_le, or_assoc]
  rfl

theorem isAlphaNum_iff {b : UInt8} : isAlphaNum b = true ↔ b.toNat = 95 ∨
    48 ≤ b.toNat ∧ b.toNat ≤ 57 ∨ 65 ≤ b.toNat ∧ b.toNat ≤ 90 ∨
    97 ≤ b.toNat ∧ b.toNat ≤ 122 := by
  simp only [isAlphaNum, Bool.or_eq_true, Bool.and_eq_true, decide_eq_true_eq,
    ← UInt8.toNat_inj, UInt8.le_iff_toNat_le, or_assoc]
  rfl

theorem lt_of_isSpecial {c : Char} (h : isSpecial c = true) : c.toNat < 0x80 := by
  rw [isSpecial_iff] at h
  omega

theorem lt_of_isNameChar {c : Char} (h : isNameChar c = true) : c.toNat < 0x80 := by
  rw [isNameChar_iff] at h
  omega

/-- The tests for bytes say of the first byte of a character what those for characters say of the
character. -/
theorem exists_tested_lead (c : Char) (cs : List Char) :
    ∃ b bs, encode (c :: cs) = b :: bs ∧ isShellSpecialVar b = isSpecial c ∧
      isAlphaNum b = isNameChar c ∧ (b = byte '{' ↔ c = '{') ∧ (b = byte '}' ↔ c = '}') := by
  obtain ⟨b, bs, hbytes, hlead⟩ := Text.exists_lead c
  refine ⟨b, bs ++ encode cs, by rw [Text.encode_cons, hbytes, List.cons_append], ?_, ?_, ?_, ?_⟩
  · rw [Bool.eq_iff_iff, isShellSpecialVar_iff, isSpecial_iff]
    omega
  · rw [Bool.eq_iff_iff, isAlphaNum_iff, isNameChar_iff]
    omega
  · rw [← UInt8.toNat_inj, ← Char.toNat_inj, Text.toNat_byte (by decide)]
    have : '{'.toNat < 0x80 := by decide
    omega
  · rw [← UInt8.toNat_inj, ← Char.toNat_inj, Text.toNat_byte (by decide)]
    have : '}'.toNat < 0x80 := by decide
    omega

/-! ## The names that the code finds -/

theorem getShellName_special {c : Char} (h : isSpecial c = true) (cs : List Char) :
    getShellName (encode (c :: cs)) = some (encode [c], 1) := by
  obtain ⟨b, bs, hbytes, hspecial, -, hopen, -⟩ := exists_tested_lead c cs
  rw [Text.encode_cons_of_lt (lt_of_isSpecial h)] at hbytes ⊢
  obtain ⟨rfl, -⟩ := List.cons.inj hbytes
  have hbrace : byte c ≠ byte '{' := fun heq => (ne_brace_of_isSpecial h).1 (hopen.mp heq)
  have hslice : Bytes.slice (byte c :: encode cs) 0 1 = some [byte c] :=
    Bytes.slice_append [] [byte c] (encode cs) rfl rfl
  rw [Text.encode_cons_of_lt (lt_of_isSpecial h)]
  simp [getShellName, hbrace, hspecial, h, hslice]

theorem getShellName_dollar {c : Char} (hopen : c ≠ '{') (hspecial : isSpecial c = false)
    (hname : isNameChar c = false) (cs : List Char) :
    getShellName (encode (c :: cs)) = some ([], 0) := by
  obtain ⟨b, bs, hbytes, hspecial', hname', hopen', -⟩ := exists_tested_lead c cs
  have hbrace : b ≠ byte '{' := fun heq => hopen (hopen'.mp heq)
  rw [hbytes]
  simp [getShellName, hbrace, hspecial', hspecial, hname', hname]

/-- The end of a name is that of the run of its characters. -/
theorem nameEnd_append {n rest : List UInt8} (hn : ∀ b ∈ n, isAlphaNum b = true)
    (hrest : ∀ b ∈ rest.head?, isAlphaNum b = false) (front : List UInt8) :
    nameEnd (front ++ (n ++ rest)) front.length = front.length + n.length := by
  induction n generalizing front with
  | nil =>
    rw [nameEnd]
    cases rest with
    | nil => simp
    | cons b rest => simp [hrest b rfl]
  | cons b n ih =>
    obtain ⟨hb, hn⟩ := List.forall_mem_cons.mp hn
    have hlt : front.length < (front ++ (b :: n ++ rest)).length := by simp
    have hget : (front ++ (b :: n ++ rest))[front.length] = b := by simp
    have hnext := ih hn (front ++ [b])
    rw [List.append_assoc, List.singleton_append, List.length_append, List.length_singleton]
      at hnext
    rw [nameEnd, dif_pos hlt, hget, if_pos hb, List.length_cons]
    exact hnext.trans (by omega)

theorem isAlphaNum_of_mem_encode {n : List Char} (hn : ∀ c ∈ n, isNameChar c = true) :
    ∀ b ∈ encode n, isAlphaNum b = true := by
  intro b hb
  obtain ⟨c, hc, hb⟩ := List.mem_flatMap.mp hb
  obtain ⟨b', bs, hbytes, -, hname, -, -⟩ := exists_tested_lead c []
  rw [Text.encode_cons_of_lt (lt_of_isNameChar (hn c hc))] at hbytes
  obtain ⟨rfl, -⟩ := List.cons.inj hbytes
  rw [Text.utf8EncodeChar_of_lt (lt_of_isNameChar (hn c hc)), List.mem_singleton] at hb
  rw [hb, hname, hn c hc]

theorem getShellName_name {n rest : List Char} (h : (Token.name n).Fits rest) :
    getShellName (encode (n ++ rest)) = some (encode n, (encode n).length) := by
  obtain ⟨hne, hname, hhead, hrest⟩ := h
  have hrest' : ∀ b ∈ (encode rest).head?, isAlphaNum b = false := by
    cases rest with
    | nil => exact nofun
    | cons c rest =>
      obtain ⟨b, bs, hbytes, -, hb, -, -⟩ := exists_tested_lead c rest
      rw [hbytes]
      rintro b' ⟨⟩
      rw [hb, hrest c rfl]
  have hend : nameEnd (encode n ++ encode rest) 0 = (encode n).length := by
    simpa using nameEnd_append (isAlphaNum_of_mem_encode hname) hrest' []
  have hslice : Bytes.slice (encode n ++ encode rest) 0 (encode n).length = some (encode n) :=
    Bytes.slice_append [] (encode n) (encode rest) rfl (Nat.zero_add _)
  obtain ⟨c, n, rfl⟩ := List.exists_cons_of_ne_nil hne
  obtain ⟨b, bs, hbytes, hspecial, hb, hopen, -⟩ := exists_tested_lead c (n ++ rest)
  have hc : isNameChar c = true := hname c List.mem_cons_self
  have hbrace : b ≠ byte '{' := by
    intro heq
    rw [hopen.mp heq] at hc
    cases hc
  have hfirst : (encode (c :: n) ++ encode rest)[0]? = some b := by
    rw [← Text.encode_append, List.cons_append, hbytes]
    rfl
  rw [Text.encode_append]
  simp [getShellName, hfirst, hbrace, hspecial, hhead c rfl, hb, hc, hend, hslice]

/-- The test for a special character in braces looks at two characters. -/
theorem isBracedSpecial_encode (cs : List Char) :
    isBracedSpecial (byte '{' :: encode cs) =
      some (match cs with
        | c :: d :: _ => isSpecial c && d = '}'
        | _ => false) := by
  cases cs with
  | nil => rfl
  | cons c cs =>
    obtain ⟨b, bs, hbytes, hspecial, -, -, -⟩ := exists_tested_lead c cs
    by_cases hc : isSpecial c = true
    · rw [Text.encode_cons_of_lt (lt_of_isSpecial hc)] at hbytes ⊢
      obtain ⟨rfl, rfl⟩ := List.cons.inj hbytes
      cases cs with
      | nil => rfl
      | cons d cs =>
        obtain ⟨b', bs', hbytes', -, -, -, hclose⟩ := exists_tested_lead d cs
        rw [hbytes']
        simp [isBracedSpecial, hspecial, hc, hclose]
    · have hfalse : isSpecial c = false := Bool.eq_false_iff.mpr hc
      have hvalue : (match c :: cs with
          | c :: d :: _ => isSpecial c && decide (d = '}')
          | _ => false) = false := by
        cases cs with
        | nil => rfl
        | cons d cs => simp [hfalse]
      rw [hvalue, hbytes]
      simp [isBracedSpecial, hspecial, hfalse]

theorem closeBrace_closed {s n tail : List UInt8} (hn : byte '}' ∉ n) (i : Nat) :
    closeBrace s i (n ++ byte '}' :: tail) =
      if i + n.length = 1 then some ([], 2)
      else (Bytes.slice s 1 (i + n.length)).map fun name => (name, i + n.length + 1) := by
  induction n generalizing i with
  | nil => simp [closeBrace]
  | cons b n ih =>
    rw [List.mem_cons, not_or] at hn
    have hlen : i + 1 + n.length = i + (b :: n).length := by
      rw [List.length_cons]
      omega
    rw [List.cons_append, closeBrace, if_neg (Ne.symm hn.1), ih hn.2, hlen]

theorem closeBrace_unclosed {s rest : List UInt8} (h : byte '}' ∉ rest) (i : Nat) :
    closeBrace s i rest = some ([], 1) := by
  induction rest generalizing i with
  | nil => rfl
  | cons b rest ih =>
    rw [List.mem_cons, not_or] at h
    rw [closeBrace, if_neg (Ne.symm h.1), ih h.2]

theorem notMem_encode_of_notMem {n : List Char} (h : '}' ∉ n) : byte '}' ∉ encode n :=
  fun hmem => h ((Text.byte_mem_encode_iff (by decide)).mp hmem)

theorem encode_brace_cons (cs : List Char) : encode ('{' :: cs) = byte '{' :: encode cs :=
  Text.encode_cons_of_lt (by decide) cs

theorem encode_closed (n rest : List Char) :
    encode (n ++ '}' :: rest) = encode n ++ byte '}' :: encode rest := by
  rw [Text.encode_append, Text.encode_cons_of_lt (by decide)]

theorem getShellName_bracedSpecial {c : Char} (h : isSpecial c = true) (rest : List Char) :
    getShellName (encode ('{' :: c :: '}' :: rest)) = some (encode [c], 3) := by
  have hspecial := isBracedSpecial_encode (c :: '}' :: rest)
  have hslice : Bytes.slice (byte '{' :: encode (c :: '}' :: rest)) 1 2 = some (encode [c]) := by
    rw [Text.encode_cons_of_lt (lt_of_isSpecial h), Text.encode_cons_of_lt (lt_of_isSpecial h)]
    exact Bytes.slice_append [byte '{'] [byte c] _ rfl rfl
  rw [encode_brace_cons]
  simp [getShellName, hspecial, h, hslice]

/-- In braces that are not around a special character, the closing one is looked for. -/
theorem getShellName_braces {cs : List Char}
    (h : ∀ c rest, cs = c :: '}' :: rest → isSpecial c = false) :
    getShellName (encode ('{' :: cs)) = closeBrace (encode ('{' :: cs)) 1 (encode cs) := by
  have hspecial : isBracedSpecial (byte '{' :: encode cs) = some false := by
    rw [isBracedSpecial_encode]
    rcases cs with _ | ⟨c, _ | ⟨d, cs⟩⟩
    · rfl
    · rfl
    · by_cases hd : d = '}'
      · subst hd
        simp [h c cs rfl]
      · simp [hd]
  rw [encode_brace_cons]
  simp [getShellName, hspecial]

theorem getShellName_braced {n : List Char} (rest : List Char) (hne : n ≠ []) (hclose : '}' ∉ n)
    (hspecial : ∀ c, n = [c] → isSpecial c = false) :
    getShellName (encode ('{' :: (n ++ '}' :: rest))) =
      some (encode n, (encode n).length + 2) := by
  have hother : ∀ c rest', n ++ '}' :: rest = c :: '}' :: rest' → isSpecial c = false := by
    intro c rest' hcs
    rcases n with _ | ⟨d, _ | ⟨e, n⟩⟩
    · exact absurd rfl hne
    · obtain ⟨rfl, -⟩ := List.cons.inj hcs
      exact hspecial d rfl
    · obtain ⟨-, htail⟩ := List.cons.inj hcs
      obtain ⟨rfl, -⟩ := List.cons.inj htail
      simp at hclose
  have hpos := List.length_pos_of_ne_nil (Text.encode_ne_nil hne)
  have hslice : Bytes.slice (encode ('{' :: (n ++ '}' :: rest))) 1 (1 + (encode n).length) =
      some (encode n) := by
    rw [encode_brace_cons, encode_closed]
    exact Bytes.slice_append [byte '{'] (encode n) _ rfl rfl
  have hwidth : 1 + (encode n).length + 1 = (encode n).length + 2 := by omega
  rw [getShellName_braces hother, encode_closed, closeBrace_closed (notMem_encode_of_notMem hclose),
    if_neg (by omega), hslice, hwidth]
  rfl

theorem getShellName_emptyBraces (rest : List Char) :
    getShellName (encode ('{' :: '}' :: rest)) = some ([], 2) := by
  rw [getShellName_braces, encode_brace_cons]
  · rw [Text.encode_cons_of_lt (by decide)]
    rfl
  · intro c rest' hcs
    obtain ⟨rfl, -⟩ := List.cons.inj hcs
    rfl

theorem getShellName_unclosed {rest : List Char} (h : '}' ∉ rest) :
    getShellName (encode ('{' :: rest)) = some ([], 1) := by
  rw [getShellName_braces, closeBrace_unclosed (notMem_encode_of_notMem h)]
  rintro c rest rfl
  simp at h

/-- The name that a token looks up. -/
def Token.key : Token → List Char
  | special c | bracedSpecial c => [c]
  | name n | braced n => n
  | literal _ | emptyBraces | unclosed | dollar => []

/-- **Behind a dollar sign the code finds the name of the token, and its length.** -/
theorem getShellName_token {t : Token} {behind rest : List Char} (hfits : t.Fits rest)
    (hspelling : t.spelling = '$' :: behind) (hne : behind ++ rest ≠ []) :
    getShellName (encode (behind ++ rest)) = some (encode t.key, (encode behind).length) := by
  cases t with
  | literal c =>
    cases hspelling
    exact absurd rfl hfits
  | special c =>
    cases hspelling
    have hlen : (encode [c]).length = 1 := by
      rw [Text.encode_cons_of_lt (lt_of_isSpecial hfits)]
      rfl
    rw [hlen]
    exact getShellName_special hfits rest
  | name n =>
    cases hspelling
    exact getShellName_name hfits
  | bracedSpecial c =>
    cases hspelling
    have hlen : (encode ['{', c, '}']).length = 3 := by
      rw [encode_brace_cons, Text.encode_cons_of_lt (lt_of_isSpecial hfits),
        Text.encode_cons_of_lt (by decide)]
      rfl
    rw [hlen]
    exact getShellName_bracedSpecial hfits rest
  | braced n =>
    cases hspelling
    obtain ⟨hn, hclose, hspecial⟩ := hfits
    have hlen : (encode ('{' :: (n ++ ['}']))).length = (encode n).length + 2 := by
      rw [encode_brace_cons, encode_closed]
      simp
    rw [hlen, List.cons_append, List.append_assoc]
    exact getShellName_braced rest hn hclose hspecial
  | emptyBraces =>
    cases hspelling
    exact getShellName_emptyBraces rest
  | unclosed =>
    cases hspelling
    exact getShellName_unclosed hfits
  | dollar =>
    cases hspelling
    obtain ⟨c, cs, rfl⟩ := List.exists_cons_of_ne_nil hne
    obtain ⟨hopen, hspecial, hname⟩ := hfits c rfl
    exact getShellName_dollar hopen hspecial hname cs

theorem substitute_key {n : List Char} (hn : n ≠ []) (map : String → Option String) (d : UInt8)
    (w : Nat) :
    substitute map d (encode n) w = encode ((map (String.ofList n)).getD "").toList := by
  rw [substitute, if_pos (Text.encode_ne_nil hn), ← Text.asBytes_ofList,
    Text.fromUtf8Lossy_asBytes]
  rfl

/-- What the code writes for a token is its value. -/
theorem substitute_token {t : Token} {behind rest : List Char} (hfits : t.Fits rest)
    (hspelling : t.spelling = '$' :: behind) (map : String → Option String) :
    substitute map (byte '$') (encode t.key) (encode behind).length = encode (t.value map) := by
  cases t with
  | literal c =>
    cases hspelling
    exact absurd rfl hfits
  | special c | bracedSpecial c => exact substitute_key (List.cons_ne_nil _ _) map _ _
  | name n | braced n => exact substitute_key hfits.1 map _ _
  | emptyBraces | unclosed | dollar =>
    cases hspelling
    rfl

/-! ## The loop -/

section Loop

variable {map : String → Option String} {b front lit behind : List UInt8} {i j : Nat}

/-- Bytes without a dollar sign are passed. -/
theorem expandLoop_skip {seg rest : List UInt8} (hb : b = front ++ (seg ++ rest))
    (hseg : byte '$' ∉ seg) (hj : front.length = j) (out : List UInt8) :
    expandLoop map b i j out = expandLoop map b i (j + seg.length) out := by
  induction seg generalizing front j with
  | nil => rfl
  | cons c seg ih =>
    rw [List.mem_cons, not_or] at hseg
    have hget : ∀ h : j < b.length, b[j] = c := by
      intro h
      subst hj hb
      simp
    have hlt : j < b.length := by
      subst hj hb
      simp
    have hb' : b = front ++ [c] ++ (seg ++ rest) := by simp [hb]
    have hj' : (front ++ [c]).length = j + 1 := by simp [hj]
    have hnext := ih hb' hseg.2 hj'
    rw [expandLoop, dif_pos hlt, hget hlt, if_neg fun h => hseg.1 h.1.symm, hnext,
      List.length_cons, Nat.add_assoc, Nat.add_comm 1]

theorem expandLoop_end (hb : b = front ++ lit) (hi : front.length = i) (hj : b.length = j)
    (out : List UInt8) : expandLoop map b i j out = some (out ++ lit) := by
  have hslice : Bytes.slice b i b.length = some lit := by
    have hlen : i + lit.length = b.length := by rw [hb, List.length_append, hi]
    have h := Bytes.slice_append front lit [] hi hlen
    rwa [List.append_nil, ← hb] at h
  rw [expandLoop, dif_neg (by omega), hslice]
  rfl

/-- A dollar sign at the end is passed like any other byte. -/
theorem expandLoop_last (hb : b = front ++ [byte '$']) (hj : front.length = j)
    (out : List UInt8) : expandLoop map b i j out = expandLoop map b i (j + 1) out := by
  have hlen : b.length = j + 1 := by
    rw [hb, List.length_append, hj]
    rfl
  rw [expandLoop, dif_pos (by omega), if_neg (by omega)]

/-- A dollar sign with something behind it: what was not copied is copied, and what the name stands
for is written. -/
theorem expandLoop_dollar {name : List UInt8} {w : Nat}
    (hb : b = front ++ (lit ++ byte '$' :: behind)) (hi : front.length = i)
    (hj : i + lit.length = j) (hbehind : behind ≠ [])
    (hname : getShellName behind = some (name, w)) (out : List UInt8) :
    expandLoop map b i j out =
      expandLoop map b (j + w + 1) (j + w + 1)
        (out ++ lit ++ substitute map (byte '$') name w) := by
  have hpos := List.length_pos_of_ne_nil hbehind
  have hlen : b.length = j + 1 + behind.length := by
    simp only [hb, List.length_append, List.length_cons]
    omega
  have hget : ∀ h : j < b.length, b[j] = byte '$' := by
    intro h
    subst hb hi hj
    simp
  have hslice : Bytes.slice b i j = some lit := by
    rw [hb]
    exact Bytes.slice_append front lit _ hi hj
  have hslice' : Bytes.slice b (j + 1) b.length = some behind := by
    have hstart : (front ++ (lit ++ [byte '$'])).length = j + 1 := by
      simp only [List.length_append, List.length_singleton]
      omega
    have h := Bytes.slice_append (front ++ (lit ++ [byte '$'])) behind [] hstart hlen.symm
    have hsplit : front ++ (lit ++ [byte '$']) ++ (behind ++ []) = b := by simp [hb]
    rwa [hsplit] at h
  have hlt : j < b.length := by omega
  rw [expandLoop, dif_pos hlt, hget hlt, if_pos ⟨rfl, by omega⟩, hslice, hslice']
  simp [hname]

end Loop

section Tokens

variable {map : String → Option String} {front lit rest : List Char} {ts : List Token}

/-- What the loop writes from some characters on, behind others that it has not copied yet. -/
def Writes (map : String → Option String) (ts : List Token) (front lit cs : List Char) : Prop :=
  ∀ out, expandLoop map (encode (front ++ (lit ++ cs))) (encode front).length
      (encode (front ++ lit)).length out =
    some (out ++ encode lit ++ encode (ts.flatMap (Token.value map)))

theorem writes_nil : Writes map [] front lit [] := by
  intro out
  have hbytes : encode (front ++ (lit ++ [])) = encode front ++ encode lit := by
    rw [List.append_nil, Text.encode_append]
  have hj : (encode (front ++ (lit ++ []))).length = (encode (front ++ lit)).length := by
    rw [List.append_nil]
  rw [expandLoop_end hbytes rfl hj]
  simp

/-- A character that is passed is one of those that are not copied yet. -/
theorem writes_of_pass {t : Token} {c : Char} (ht : t.value map = [c])
    (hpass : ∀ out, expandLoop map (encode (front ++ (lit ++ c :: rest))) (encode front).length
        (encode (front ++ lit)).length out =
      expandLoop map (encode (front ++ (lit ++ c :: rest))) (encode front).length
        ((encode (front ++ lit)).length + (encode [c]).length) out)
    (hrest : Writes map ts front (lit ++ [c]) rest) :
    Writes map (t :: ts) front lit (c :: rest) := by
  intro out
  have hnext := hrest out
  have htext : front ++ (lit ++ [c] ++ rest) = front ++ (lit ++ c :: rest) := by simp
  have hlen : (encode (front ++ (lit ++ [c]))).length =
      (encode (front ++ lit)).length + (encode [c]).length := by
    rw [← List.append_assoc, Text.encode_append, List.length_append]
  rw [htext, hlen] at hnext
  rw [hpass, hnext, List.flatMap_cons, ht, Text.encode_append lit, Text.encode_append [c]]
  simp only [List.append_assoc]

theorem writes_literal {c : Char} (hc : c ≠ '$')
    (hrest : Writes map ts front (lit ++ [c]) rest) :
    Writes map (.literal c :: ts) front lit (c :: rest) := by
  refine writes_of_pass rfl (fun out => ?_) hrest
  have hseg : byte '$' ∉ encode [c] := by
    rw [Text.byte_mem_encode_iff (by decide), List.mem_singleton]
    exact Ne.symm hc
  have hbytes : encode (front ++ (lit ++ c :: rest)) =
      encode (front ++ lit) ++ (encode [c] ++ encode rest) := by
    rw [← Text.encode_append, ← Text.encode_append]
    simp
  exact expandLoop_skip hbytes hseg rfl out

theorem writes_last (hrest : Writes map ts front (lit ++ ['$']) []) :
    Writes map (.dollar :: ts) front lit ['$'] := by
  refine writes_of_pass rfl (fun out => ?_) hrest
  have hbytes : encode (front ++ (lit ++ ['$'])) = encode (front ++ lit) ++ [byte '$'] := by
    rw [← List.append_assoc, Text.encode_append]
    rfl
  exact expandLoop_last hbytes rfl out

/-- A token with something behind its dollar sign is replaced by its value. -/
theorem writes_dollar {t : Token} {behind : List Char} (hfits : t.Fits rest)
    (hspelling : t.spelling = '$' :: behind) (hne : behind ++ rest ≠ [])
    (hrest : Writes map ts (front ++ (lit ++ t.spelling)) [] rest) :
    Writes map (t :: ts) front lit ('$' :: (behind ++ rest)) := by
  intro out
  have hname := getShellName_token hfits hspelling hne
  have hbytes : encode (front ++ (lit ++ '$' :: (behind ++ rest))) =
      encode front ++ (encode lit ++ byte '$' :: encode (behind ++ rest)) := by
    rw [Text.encode_append, Text.encode_append, Text.encode_cons_of_lt (by decide)]
  have hj : (encode front).length + (encode lit).length = (encode (front ++ lit)).length := by
    rw [Text.encode_append, List.length_append]
  have hnext := hrest (out ++ encode lit ++ encode (t.value map))
  have htext : front ++ (lit ++ t.spelling) ++ ([] ++ rest) =
      front ++ (lit ++ '$' :: (behind ++ rest)) := by simp [hspelling]
  have hlen : (encode (front ++ (lit ++ t.spelling))).length =
      (encode (front ++ lit)).length + (encode behind).length + 1 := by
    rw [hspelling, ← List.append_assoc, Text.encode_append, Text.encode_cons_of_lt (by decide),
      List.length_append, List.length_cons, Nat.add_assoc]
  rw [htext, List.append_nil, hlen] at hnext
  rw [expandLoop_dollar hbytes rfl hj (Text.encode_ne_nil hne) hname,
    substitute_token hfits hspelling, hnext]
  simp [Text.encode_append]

/-- **The loop writes the values of the tokens that are left.** -/
theorem Splits.writes {cs : List Char} (h : Splits cs ts) (front lit : List Char) :
    Writes map ts front lit cs := by
  induction h generalizing front lit with
  | nil => exact writes_nil
  | @cons t cs rest ts hcs hfits _ ih =>
    rcases t.spelling_eq with ⟨c, rfl⟩ | ⟨behind, hspelling⟩
    · rw [hcs]
      exact writes_literal hfits (ih front (lit ++ [c]))
    rw [hspelling, List.cons_append] at hcs
    rw [hcs]
    by_cases hne : behind ++ rest = []
    · -- the text ends with this dollar sign
      obtain ⟨rfl, rfl⟩ := List.append_eq_nil_iff.mp hne
      have hnext := nextToken_spelling hfits
      rw [hspelling] at hnext
      cases hnext
      exact writes_last (ih front (lit ++ ['$']))
    · exact writes_dollar hfits hspelling hne (ih _ [])

end Tokens

/-- **`expand` is the substitution of the tokens of its text**, which there is one way to tell: it
returns, for every text and every map, the values of the tokens in a row. -/
theorem expand_eq_tokens (s : String) :
    ∃ tokens, Splits s.toList tokens ∧ (∀ tokens', Splits s.toList tokens' → tokens' = tokens) ∧
      ∀ map, expand s map = some (String.ofList (tokens.flatMap (Token.value map))) := by
  obtain ⟨tokens, htokens⟩ := exists_splits s.toList
  refine ⟨tokens, htokens, fun tokens' => htokens.unique, fun map => ?_⟩
  have hwrites : Writes map tokens [] [] s.toList := htokens.writes [] []
  have hloop := hwrites []
  have hbytes : Text.asBytes s = encode ([] ++ ([] ++ s.toList)) := rfl
  rw [expand, hbytes]
  simp only [List.append_nil, List.nil_append, Text.encode_nil, List.length_nil] at hloop ⊢
  rw [hloop, Option.map_some, ← Text.asBytes_ofList, Text.fromUtf8Lossy_asBytes]

end Extension

end Flannel
