import Flannel.Lib.Bytes
import Flannel.Lib.Utf8
import Mathlib.Data.List.TakeWhile

/-!
# Variables in the commands of the extension backend

`expand` (`backend/extension/mod.rs`) replaces the variables in a command.  It goes through the
bytes with two positions, one where the text begins that is not copied yet and one where it looks,
and `get_shell_name` says of the bytes behind a dollar sign which name they begin with and how many
of them belong to it.

What it is for is said about characters: a text splits into tokens, and each token has a value.
There is one way to split a text (`exists_splits`, `Splits.unique`).
-/

namespace Flannel

namespace Extension

open Text (byte encode)

/-! ## The code -/

/-- `is_shell_special_var`. -/
def isShellSpecialVar (c : UInt8) : Bool :=
  c = byte '*' || c = byte '#' || c = byte '$' || c = byte '@' || c = byte '!' || c = byte '?' ||
    c = byte '-' || (byte '0' ≤ c && c ≤ byte '9')

/-- `is_alpha_num`. -/
def isAlphaNum (c : UInt8) : Bool :=
  c = byte '_' || (byte '0' ≤ c && c ≤ byte '9') || (byte 'A' ≤ c && c ≤ byte 'Z') ||
    (byte 'a' ≤ c && c ≤ byte 'z')

/-- The closing brace of `get_shell_name`, looked for from a position on. -/
def closeBrace (s : List UInt8) (i : Nat) : List UInt8 → Option (List UInt8 × Nat)
  | [] => some ([], 1)
  | c :: rest =>
    if c = byte '}' then
      if i = 1 then some ([], 2)
      else (Bytes.slice s 1 i).map fun name => (name, i + 1)
    else closeBrace s (i + 1) rest

/-- The end of a name, looked for from a position on. -/
def nameEnd (s : List UInt8) (i : Nat) : Nat :=
  if h : i < s.length then
    if isAlphaNum s[i] then nameEnd s (i + 1) else i
  else i
termination_by s.length - i

/-- The test of `get_shell_name` for a special character in braces. -/
def isBracedSpecial (s : List UInt8) : Option Bool :=
  if s.length > 2 then do
    let c ← s[1]?
    if isShellSpecialVar c then
      let close ← s[2]?
      return close = byte '}'
    else return false
  else some false

/-- `get_shell_name`; an index out of range is a panic. -/
def getShellName (s : List UInt8) : Option (List UInt8 × Nat) := do
  let c ← s[0]?
  if c = byte '{' then
    if ← isBracedSpecial s then
      let name ← Bytes.slice s 1 2
      return (name, 3)
    else closeBrace s 1 (s.drop 1)
  else if isShellSpecialVar c then
    let name ← Bytes.slice s 0 1
    return (name, 1)
  else if isAlphaNum c then
    let name ← Bytes.slice s 0 (nameEnd s 0)
    return (name, nameEnd s 0)
  else return ([], 0)

/-- What stands in the result for a dollar sign with the name behind it. -/
def substitute (map : String → Option String) (dollar : UInt8) (name : List UInt8) (w : Nat) :
    List UInt8 :=
  if name ≠ [] then Text.asBytes ((map (Text.fromUtf8Lossy name)).getD "")
  else if w = 0 then [dollar]
  else []

/-- The loop of `expand`: the text from `i` on is not copied yet, and `j` is where it looks. -/
def expandLoop (map : String → Option String) (b : List UInt8) (i j : Nat) (out : List UInt8) :
    Option (List UInt8) :=
  if h : j < b.length then
    if b[j] = byte '$' ∧ j + 1 < b.length then do
      let literal ← Bytes.slice b i j
      let behind ← Bytes.slice b (j + 1) b.length
      let (name, w) ← getShellName behind
      expandLoop map b (j + w + 1) (j + w + 1) (out ++ literal ++ substitute map b[j] name w)
    else expandLoop map b i (j + 1) out
  else do
    let literal ← Bytes.slice b i b.length
    return out ++ literal
termination_by b.length - j

/-- `expand`. -/
def expand (s : String) (map : String → Option String) : Option String :=
  (expandLoop map (Text.asBytes s) 0 0 []).map Text.fromUtf8Lossy

/-! ## Tokens -/

/-- The characters that are a name by themselves. -/
def isSpecial (c : Char) : Bool := c ∈ ['*', '#', '$', '@', '!', '?', '-'] || c.isDigit

/-- The characters that names are made of. -/
def isNameChar (c : Char) : Bool := c = '_' || c.isAlphanum

/-- What a text is made of: the characters of the literal text; a variable, with and without braces
and with a name of its own or a special character for a name; what is dropped; and the dollar sign
that is kept. -/
inductive Token where
  | literal (c : Char)
  | special (c : Char)
  | name (n : List Char)
  | bracedSpecial (c : Char)
  | braced (n : List Char)
  | emptyBraces
  | unclosed
  | dollar
  deriving DecidableEq, Repr

namespace Token

/-- How a token is written. -/
def spelling : Token → List Char
  | literal c => [c]
  | special c => ['$', c]
  | name n => '$' :: n
  | bracedSpecial c => ['$', '{', c, '}']
  | braced n => '$' :: '{' :: (n ++ ['}'])
  | emptyBraces => ['$', '{', '}']
  | unclosed => ['$', '{']
  | dollar => ['$']

/-- What a token is, in front of the rest of the text.  A name is as long as it can be, braces reach
to the first closing one, and a dollar sign is kept if it is not the beginning of anything else. -/
def Fits : Token → List Char → Prop
  | literal c, _ => c ≠ '$'
  | special c, _ => isSpecial c = true
  | name n, rest => n ≠ [] ∧ (∀ c ∈ n, isNameChar c = true) ∧ (∀ c ∈ n.head?, isSpecial c = false) ∧
      ∀ c ∈ rest.head?, isNameChar c = false
  | bracedSpecial c, _ => isSpecial c = true
  | braced n, _ => n ≠ [] ∧ '}' ∉ n ∧ ∀ c, n = [c] → isSpecial c = false
  | emptyBraces, _ => True
  | unclosed, rest => '}' ∉ rest
  | dollar, rest => ∀ c ∈ rest.head?, c ≠ '{' ∧ isSpecial c = false ∧ isNameChar c = false

/-- What stands in the result for a token. -/
def value (map : String → Option String) : Token → List Char
  | literal c => [c]
  | special c | bracedSpecial c => ((map (String.ofList [c])).getD "").toList
  | name n | braced n => ((map (String.ofList n)).getD "").toList
  | emptyBraces | unclosed => []
  | dollar => ['$']

end Token

/-- A text splits into tokens, each of which fits in front of the rest. -/
inductive Splits : List Char → List Token → Prop
  | nil : Splits [] []
  | cons {t : Token} {cs rest : List Char} {ts : List Token} (hcs : cs = t.spelling ++ rest)
      (hfits : t.Fits rest) (hrest : Splits rest ts) : Splits cs (t :: ts)

/-! ## There is one way to split a text -/

/-- The token behind an opening brace, and the rest. -/
def nextInBraces (cs : List Char) : Token × List Char :=
  match cs.takeWhile (· ≠ '}'), cs.dropWhile (· ≠ '}') with
  | _, [] => (.unclosed, cs)
  | [], _ :: rest => (.emptyBraces, rest)
  | [c], _ :: rest => (if isSpecial c then .bracedSpecial c else .braced [c], rest)
  | n, _ :: rest => (.braced n, rest)

/-- The token behind a dollar sign, and the rest. -/
def nextBehindDollar : List Char → Token × List Char
  | [] => (.dollar, [])
  | c :: cs =>
    if c = '{' then nextInBraces cs
    else if isSpecial c then (.special c, cs)
    else if isNameChar c then
      (.name (c :: cs.takeWhile isNameChar), cs.dropWhile isNameChar)
    else (.dollar, c :: cs)

/-- The first token, and the rest. -/
def nextToken : List Char → Option (Token × List Char)
  | [] => none
  | c :: cs => some (if c = '$' then nextBehindDollar cs else (.literal c, cs))

theorem isSpecial_iff {c : Char} : isSpecial c = true ↔ (c.toNat = 42 ∨ c.toNat = 35 ∨
    c.toNat = 36 ∨ c.toNat = 64 ∨ c.toNat = 33 ∨ c.toNat = 63 ∨ c.toNat = 45) ∨
    48 ≤ c.toNat ∧ c.toNat ≤ 57 := by
  simp only [isSpecial, Bool.or_eq_true, decide_eq_true_eq, List.mem_cons, List.not_mem_nil,
    or_false, Char.isDigit_iff_toNat, ← Char.toNat_inj]
  rfl

theorem isNameChar_iff {c : Char} : isNameChar c = true ↔ c.toNat = 95 ∨
    (65 ≤ c.toNat ∧ c.toNat ≤ 90 ∨ 97 ≤ c.toNat ∧ c.toNat ≤ 122) ∨
    48 ≤ c.toNat ∧ c.toNat ≤ 57 := by
  have hletter : isNameChar c = (decide (c = '_') ||
      ((decide (65 ≤ c.val ∧ c.val ≤ 90) || (decide (97 ≤ c.val) && decide (c.val ≤ 122))) ||
        c.isDigit)) := rfl
  rw [hletter]
  simp only [Bool.or_eq_true, decide_eq_true_eq, Bool.and_eq_true, Char.isDigit_iff_toNat,
    ← Char.toNat_inj, UInt32.le_iff_toNat_le, ← Char.toNat_val]
  rfl

theorem takeWhile_append_of_head {p : Char → Bool} {n rest : List Char}
    (hn : ∀ c ∈ n, p c = true) (hrest : ∀ c ∈ rest.head?, p c = false) :
    (n ++ rest).takeWhile p = n ∧ (n ++ rest).dropWhile p = rest := by
  rw [List.takeWhile_append_of_pos hn, List.dropWhile_append_of_pos hn]
  cases rest with
  | nil => simp
  | cons c rest => simp [hrest c rfl]

/-- A name in braces ends at the first closing one. -/
theorem nextInBraces_append {n : List Char} (hn : '}' ∉ n) (rest : List Char) :
    nextInBraces (n ++ '}' :: rest) =
      match n with
      | [] => (.emptyBraces, rest)
      | [c] => (if isSpecial c then .bracedSpecial c else .braced [c], rest)
      | n => (.braced n, rest) := by
  have hall : ∀ c ∈ n, decide (c ≠ '}') = true := by
    intro c hc
    exact decide_eq_true (ne_of_mem_of_not_mem hc hn)
  have hhead : ∀ c ∈ ('}' :: rest).head?, decide (c ≠ '}') = false := by simp
  obtain ⟨htake, hdrop⟩ := takeWhile_append_of_head hall hhead
  rw [nextInBraces, htake, hdrop]
  rcases n with _ | ⟨c, _ | ⟨d, n⟩⟩ <;> rfl

theorem nextInBraces_unclosed {cs : List Char} (h : '}' ∉ cs) :
    nextInBraces cs = (.unclosed, cs) := by
  have hdrop : cs.dropWhile (· ≠ '}') = [] := by
    rw [List.dropWhile_eq_nil_iff]
    exact fun c hc => decide_eq_true (ne_of_mem_of_not_mem hc h)
  rw [nextInBraces, hdrop]

theorem ne_brace_of_isSpecial {c : Char} (h : isSpecial c = true) : c ≠ '{' ∧ c ≠ '}' := by
  constructor
  · rintro rfl
    cases h
  · rintro rfl
    cases h

/-- **The token in front of a text can be told.** -/
theorem nextToken_spelling {t : Token} {rest : List Char} (h : t.Fits rest) :
    nextToken (t.spelling ++ rest) = some (t, rest) := by
  cases t with
  | literal c => simp [Token.spelling, nextToken, show c ≠ '$' from h]
  | special c =>
    have hspecial : isSpecial c = true := h
    simp [Token.spelling, nextToken, nextBehindDollar, hspecial, (ne_brace_of_isSpecial hspecial).1]
  | name n =>
    obtain ⟨hne, hname, hhead, hrest⟩ := h
    obtain ⟨c, n, rfl⟩ := List.exists_cons_of_ne_nil hne
    obtain ⟨hc, hn⟩ := List.forall_mem_cons.mp hname
    have hbrace : c ≠ '{' := by
      rintro rfl
      cases hc
    obtain ⟨htake, hdrop⟩ := takeWhile_append_of_head hn hrest
    simp [Token.spelling, nextToken, nextBehindDollar, hbrace, hhead c rfl, hc, htake, hdrop]
  | bracedSpecial c =>
    have hspecial : isSpecial c = true := h
    have hnext := nextInBraces_append (n := [c])
      (by simpa using (ne_brace_of_isSpecial hspecial).2.symm) rest
    simpa [Token.spelling, nextToken, nextBehindDollar, hspecial] using hnext
  | braced n =>
    obtain ⟨hne, hclose, hspecial⟩ := h
    have hnext := nextInBraces_append hclose rest
    rcases n with _ | ⟨c, _ | ⟨d, n⟩⟩
    · exact absurd rfl hne
    · simpa [Token.spelling, nextToken, nextBehindDollar, hspecial c rfl] using hnext
    · simpa [Token.spelling, nextToken, nextBehindDollar] using hnext
  | emptyBraces =>
    have hnext := nextInBraces_append (n := []) List.not_mem_nil rest
    simpa [Token.spelling, nextToken, nextBehindDollar] using hnext
  | unclosed =>
    simp [Token.spelling, nextToken, nextBehindDollar, nextInBraces_unclosed h]
  | dollar =>
    cases rest with
    | nil => rfl
    | cons c rest =>
      obtain ⟨hbrace, hspecial, hname⟩ := h c rfl
      simp [Token.spelling, nextToken, nextBehindDollar, hbrace, hspecial, hname]

theorem Splits.unique {cs : List Char} {ts ts' : List Token} (h : Splits cs ts)
    (h' : Splits cs ts') : ts' = ts := by
  induction h generalizing ts' with
  | nil =>
    cases h' with
    | nil => rfl
    | cons hcs hfits _ =>
      have hnext := nextToken_spelling hfits
      rw [← hcs] at hnext
      cases hnext
  | cons hcs hfits _ ih =>
    have hnext := nextToken_spelling hfits
    rw [← hcs] at hnext
    cases h' with
    | nil => cases hnext
    | cons hcs' hfits' hrest' =>
      have hnext' := nextToken_spelling hfits'
      rw [← hcs', hnext] at hnext'
      cases hnext'
      rw [ih hrest']

/-- Behind a dollar sign there is always a token. -/
theorem exists_token_of_dollar (cs : List Char) :
    ∃ t : Token, ∃ rest, '$' :: cs = t.spelling ++ rest ∧ t.Fits rest := by
  cases cs with
  | nil => exact ⟨.dollar, [], rfl, nofun⟩
  | cons c cs =>
    by_cases hbrace : c = '{'
    · subst hbrace
      by_cases hclose : '}' ∈ cs
      · obtain ⟨n, rest, rfl, hn⟩ := List.eq_append_cons_of_mem hclose
        by_cases hempty : n = []
        · subst hempty
          exact ⟨.emptyBraces, rest, rfl, trivial⟩
        by_cases hspecial : ∃ d, n = [d] ∧ isSpecial d = true
        · obtain ⟨d, rfl, hd⟩ := hspecial
          exact ⟨.bracedSpecial d, rest, rfl, hd⟩
        · refine ⟨.braced n, rest, by simp [Token.spelling], hempty, hn, fun d hd => ?_⟩
          exact Bool.eq_false_iff.mpr fun h => hspecial ⟨d, hd, h⟩
      · exact ⟨.unclosed, cs, rfl, hclose⟩
    by_cases hspecial : isSpecial c = true
    · exact ⟨.special c, cs, rfl, hspecial⟩
    by_cases hname : isNameChar c = true
    · refine ⟨.name (c :: cs.takeWhile isNameChar), cs.dropWhile isNameChar, ?_, ?_⟩
      · simp [Token.spelling]
      refine ⟨List.cons_ne_nil _ _, ?_, ?_, fun d hd => ?_⟩
      · rw [List.forall_mem_cons]
        exact ⟨hname, fun d hd => List.mem_takeWhile_imp hd⟩
      · rintro d ⟨⟩
        exact Bool.eq_false_iff.mpr hspecial
      · have hhead := List.head?_dropWhile_not isNameChar cs
        rw [Option.mem_def.mp hd] at hhead
        simpa using hhead
    · refine ⟨.dollar, c :: cs, rfl, ?_⟩
      rintro d ⟨⟩
      exact ⟨hbrace, Bool.eq_false_iff.mpr hspecial, Bool.eq_false_iff.mpr hname⟩

/-- A token is a character, or it begins with a dollar sign. -/
theorem Token.spelling_eq (t : Token) :
    (∃ c, t = .literal c) ∨ ∃ behind, t.spelling = '$' :: behind := by
  cases t with
  | literal c => exact .inl ⟨c, rfl⟩
  | _ => exact .inr ⟨_, rfl⟩

theorem Token.spelling_ne_nil (t : Token) : t.spelling ≠ [] := by
  cases t <;> exact List.cons_ne_nil _ _

/-- Every text splits into tokens. -/
theorem exists_splits (cs : List Char) : ∃ ts, Splits cs ts := by
  -- by induction on the length, as a token takes at least one character
  induction hlen : cs.length using Nat.strong_induction_on generalizing cs with
  | h len ih =>
    cases cs with
    | nil => exact ⟨[], .nil⟩
    | cons c cs =>
      have htoken : ∃ t : Token, ∃ rest, c :: cs = t.spelling ++ rest ∧ t.Fits rest := by
        by_cases hc : c = '$'
        · rw [hc]
          exact exists_token_of_dollar cs
        · exact ⟨.literal c, cs, rfl, hc⟩
      obtain ⟨t, rest, hcs, hfits⟩ := htoken
      have hpos := List.length_pos_of_ne_nil t.spelling_ne_nil
      have hshort : rest.length < len := by
        rw [← hlen, hcs, List.length_append]
        omega
      obtain ⟨ts, hts⟩ := ih rest.length hshort rest rfl
      exact ⟨t :: ts, .cons hcs hfits hts⟩

end Extension

end Flannel
