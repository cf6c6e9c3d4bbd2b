import Mathlib.Data.List.Basic

/-!
# Lines, white space and UTF-8

The text functions of Rust's standard library that line readers are made of: `lines`,
`trim` and `split`, on lists of characters where that is easier, and the two ways from bytes
to a text, `from_utf8` and `from_utf8_lossy`.

Both ways cut the bytes into the same pieces: characters, and between them the longest
beginnings of a character that the next byte does not complete.  The one stops at the first
piece that is no character, the other writes a replacement character for it.

A text that is written line by line is read back line by line (`lines_of_written`), if
no line has a line break of its own.  What has no white space is not trimmed, and what does
not have the separator is not split.
-/

namespace Text

/-- `char::is_whitespace`. -/
def isWhitespace (c : Char) : Bool :=
  let n := c.toNat
  (9 ≤ n && n ≤ 13) || n == 32 || n == 0x85 || n == 0xa0 || n == 0x1680 ||
    (0x2000 ≤ n && n ≤ 0x200a) || n == 0x2028 || n == 0x2029 || n == 0x202f || n == 0x205f ||
    n == 0x3000

/-- `str::trim`. -/
def trim (s : String) : String :=
  String.ofList ((s.toList.dropWhile isWhitespace).reverse.dropWhile isWhitespace).reverse

/-- `str::split_inclusive`, at line feeds. -/
def splitInclusive : List Char → List (List Char)
  | [] => []
  | c :: cs =>
    if c = '\n' then [c] :: splitInclusive cs
    else
      match splitInclusive cs with
      | [] => [[c]]
      | line :: rest => (c :: line) :: rest

/-- A line without the line feed at its end, or without the carriage return and the line
feed. -/
def stripLineEnd (line : List Char) : List Char :=
  match line.reverse with
  | '\n' :: '\r' :: rest => rest.reverse
  | '\n' :: rest => rest.reverse
  | _ => line

/-- `str::lines`. -/
def lines (s : String) : List String :=
  (splitInclusive s.toList).map fun line => String.ofList (stripLineEnd line)

/-- `str::split`, at a character. -/
def split (c : Char) (s : String) : List String := (s.toList.splitOn c).map String.ofList

/-- The `{:0width}` of a number with the given digits. -/
def zeroPad (width : Nat) (digits : List Char) : String :=
  String.ofList (digits.leftpad width '0')

/-! ## UTF-8 -/

/-- `utf8_char_width`: the length of a character by its first byte, 0 for none. -/
def utf8CharWidth (b : UInt8) : Nat :=
  if b < 0x80 then 1
  else if 0xc2 ≤ b ∧ b ≤ 0xdf then 2
  else if 0xe0 ≤ b ∧ b ≤ 0xef then 3
  else if 0xf0 ≤ b ∧ b ≤ 0xf4 then 4
  else 0

/-- A continuation byte. -/
def isContinuation (b : UInt8) : Bool := 0x80 ≤ b && b ≤ 0xbf

/-- The second bytes of the longer characters: no overlong forms, no surrogates, and
nothing past the last code point. -/
def isSecond (first b : UInt8) : Bool :=
  if first = 0xe0 then 0xa0 ≤ b && b ≤ 0xbf
  else if first = 0xed then 0x80 ≤ b && b ≤ 0x9f
  else if first = 0xf0 then 0x90 ≤ b && b ≤ 0xbf
  else if first = 0xf4 then 0x80 ≤ b && b ≤ 0x8f
  else isContinuation b

/-- A piece of a text in UTF-8: a character with the number of its bytes, some bytes that are
none, or the beginning of one where the bytes end. -/
inductive Utf8Piece where
  | char (c : Char) (len : Nat)
  | invalid (len : Nat)
  | incomplete
  deriving DecidableEq, Repr

/-- The low six bits of a continuation byte, below the bits read so far. -/
def utf8Push (value : Nat) (b : UInt8) : Nat := value * 64 + b.toNat % 64

/-- The pieces of a text in UTF-8. -/
def utf8Pieces : List UInt8 → List Utf8Piece
  | [] => []
  | a :: bs =>
    match utf8CharWidth a with
    | 1 => .char (Char.ofNat a.toNat) 1 :: utf8Pieces bs
    | 2 =>
      match bs with
      | [] => [.incomplete]
      | b :: bs₁ =>
        if isContinuation b then
          .char (Char.ofNat (utf8Push (a.toNat % 32) b)) 2 :: utf8Pieces bs₁
        else .invalid 1 :: utf8Pieces (b :: bs₁)
    | 3 =>
      match bs with
      | [] => [.incomplete]
      | b :: bs₁ =>
        if isSecond a b then
          match bs₁ with
          | [] => [.incomplete]
          | c :: bs₂ =>
            if isContinuation c then
              .char (Char.ofNat (utf8Push (utf8Push (a.toNat % 16) b) c)) 3 :: utf8Pieces bs₂
            else .invalid 2 :: utf8Pieces (c :: bs₂)
        else .invalid 1 :: utf8Pieces (b :: bs₁)
    | 4 =>
      match bs with
      | [] => [.incomplete]
      | b :: bs₁ =>
        if isSecond a b then
          match bs₁ with
          | [] => [.incomplete]
          | c :: bs₂ =>
            if isContinuation c then
              match bs₂ with
              | [] => [.incomplete]
              | d :: bs₃ =>
                if isContinuation d then
                  .char (Char.ofNat (utf8Push (utf8Push (utf8Push (a.toNat % 8) b) c) d)) 4 ::
                    utf8Pieces bs₃
                else .invalid 3 :: utf8Pieces (d :: bs₃)
            else .invalid 2 :: utf8Pieces (c :: bs₂)
        else .invalid 1 :: utf8Pieces (b :: bs₁)
    | _ => .invalid 1 :: utf8Pieces bs

/-- `Utf8Error`. -/
structure Utf8Error where
  validUpTo : Nat
  errorLen : Option Nat
  deriving DecidableEq, Repr

/-- `<Utf8Error as Display>::fmt`. -/
def Utf8Error.toString (e : Utf8Error) : String :=
  match e.errorLen with
  | some errorLen => s!"invalid utf-8 sequence of {errorLen} bytes from index {e.validUpTo}"
  | none => s!"incomplete utf-8 byte sequence from index {e.validUpTo}"

/-- The characters of the pieces from a byte on, if all of them are characters. -/
def utf8Chars (index : Nat) : List Utf8Piece → Except Utf8Error (List Char)
  | [] => .ok []
  | .char c len :: pieces => (utf8Chars (index + len) pieces).map (c :: ·)
  | .invalid len :: _ => .error ⟨index, some len⟩
  | .incomplete :: _ => .error ⟨index, none⟩

/-- `String::from_utf8`. -/
def fromUtf8 (bytes : List UInt8) : Except Utf8Error String :=
  (utf8Chars 0 (utf8Pieces bytes)).map String.ofList

/-- `String::from_utf8_lossy`. -/
def fromUtf8Lossy (bytes : List UInt8) : String :=
  String.ofList ((utf8Pieces bytes).map fun
    | .char c _ => c
    | .invalid _ => '\uFFFD'
    | .incomplete => '\uFFFD')

variable {s t : String} {c : Char}

/-- The text of some lines, each with a line feed after it. -/
def written (ls : List String) : List Char := ls.flatMap fun l => l.toList ++ ['\n']

/-! ## Reading lines -/

theorem splitInclusive_line {line : List Char} (hline : '\n' ∉ line) (rest : List Char) :
    splitInclusive (line ++ '\n' :: rest) = (line ++ ['\n']) :: splitInclusive rest := by
  induction line with
  | nil => simp [splitInclusive]
  | cons c line ih =>
    rw [List.mem_cons, not_or] at hline
    rw [List.cons_append, splitInclusive, if_neg (Ne.symm hline.1), ih hline.2]
    rfl

theorem stripLineEnd_line {line : List Char} (hline : '\r' ∉ line) :
    stripLineEnd (line ++ ['\n']) = line := by
  have hrev : (line ++ ['\n']).reverse = '\n' :: line.reverse := by simp
  unfold stripLineEnd
  rw [hrev]
  split
  · rename_i rest heq
    have hreturn : '\r' ∈ line.reverse := by
      rw [(List.cons.inj heq).2]
      exact List.mem_cons_self
    exact absurd (List.mem_reverse.mp hreturn) hline
  · rename_i rest _ heq
    rw [← (List.cons.inj heq).2, List.reverse_reverse]
  · rename_i hne
    exact absurd rfl (hne _)

/-- **What is written line by line is read line by line.** -/
theorem lines_of_written {ls : List String} (hs : s.toList = written ls)
    (hls : ∀ l ∈ ls, '\n' ∉ l.toList ∧ '\r' ∉ l.toList) : lines s = ls := by
  have hsplit : splitInclusive (written ls) = ls.map fun l => l.toList ++ ['\n'] := by
    clear hs
    induction ls with
    | nil => rfl
    | cons l ls ih =>
      have hcons : written (l :: ls) = l.toList ++ '\n' :: written ls := by
        simp [written]
      rw [hcons, splitInclusive_line (hls l List.mem_cons_self).1,
        ih fun m hm => hls m (List.mem_cons_of_mem _ hm), List.map_cons]
  have hstrip : ∀ l ∈ ls, String.ofList (stripLineEnd (l.toList ++ ['\n'])) = id l := by
    intro l hl
    rw [stripLineEnd_line (hls l hl).2, String.ofList_toList, id]
  rw [lines, hs, hsplit, List.map_map]
  exact (List.map_congr_left hstrip).trans (List.map_id ls)

/-! ## Trimming and splitting -/

theorem trim_eq (h : ∀ c ∈ s.toList, isWhitespace c = false) : trim s = s := by
  have hdrop : ∀ cs : List Char, (∀ c ∈ cs, isWhitespace c = false) →
      cs.dropWhile isWhitespace = cs := by
    intro cs hcs
    cases cs with
    | nil => rfl
    | cons c cs => exact List.dropWhile_cons_of_neg (by simp [hcs c List.mem_cons_self])
  rw [trim, hdrop _ h, hdrop _ fun c hc => h c (List.mem_reverse.mp hc), List.reverse_reverse,
    String.ofList_toList]

theorem split_eq (h : c ∉ s.toList) : split c s = [s] := by
  have hone : s.toList.splitOn c = [s.toList] := by
    refine List.splitOnP_eq_singleton fun d hd => beq_eq_false_iff_ne.mpr ?_
    rintro rfl
    exact h hd
  rw [split, hone, List.map_singleton, String.ofList_toList]

end Text
