import Mathlib.Data.List.Basic

/-!
# Words of a line

Lines of words, as command files have them: words stand between blanks, and a word in double
quotes may have blanks of its own; inside the quotes a backslash takes the next character as it
is.  A quote that closes ends its word.

A reader of such lines gives back the words that were written, if those without quotes have no
blank and no quote and are not empty, and those in quotes have no quote and no backslash
(`read_bare` and `read_quoted`).
-/

namespace Words

/-- The blanks between words. -/
def isBlank (c : Char) : Bool := c == ' ' || c == '\t' || c == '\n'

/-- The words of a line: inside of quotes, behind a backslash, and what has been read of a
word. -/
def read (quoted escaped : Bool) (word : List Char) : List Char → List (List Char)
  | [] => if quoted || word.isEmpty then [] else [word]
  | c :: cs =>
    if quoted then
      if escaped then read true false (word ++ [c]) cs
      else if c = '\\' then read true true word cs
      else if c = '"' then word :: read false false [] cs
      else read true false (word ++ [c]) cs
    else if c = '"' then read true false word cs
    else if isBlank c then
      if word.isEmpty then read false false [] cs else word :: read false false [] cs
    else read false false (word ++ [c]) cs

/-- The words of a line. -/
def wordsOf (line : List Char) : List (List Char) := read false false [] line

/-- A word that needs no quotes. -/
def IsBare (word : List Char) : Prop :=
  word ≠ [] ∧ ∀ c ∈ word, isBlank c = false ∧ c ≠ '"'

/-- A word that may stand in quotes. -/
def IsQuotable (word : List Char) : Prop := ∀ c ∈ word, c ≠ '"' ∧ c ≠ '\\' ∧ c ≠ '\n'

section Read

variable {word acc rest : List Char}

theorem read_bare_append (h : ∀ c ∈ word, isBlank c = false ∧ c ≠ '"') :
    read false false acc (word ++ rest) = read false false (acc ++ word) rest := by
  induction word generalizing acc with
  | nil => rw [List.nil_append, List.append_nil]
  | cons c word ih =>
    obtain ⟨hc, hword⟩ := List.forall_mem_cons.mp h
    rw [List.cons_append, read, if_neg (by simp), if_neg hc.2, if_neg (by simp [hc.1]), ih hword,
      List.append_assoc, List.singleton_append]

/-- **A bare word**, at the end of the line or in front of a blank. -/
theorem read_bare (h : IsBare word) (rest : List Char) :
    read false false [] word = [word] ∧
      read false false [] (word ++ ' ' :: rest) = word :: read false false [] rest := by
  have hne : word.isEmpty = false := by
    rw [List.isEmpty_eq_false_iff]
    exact h.1
  constructor
  · have hread := @read_bare_append word [] [] h.2
    rw [List.append_nil, List.nil_append] at hread
    rw [hread, read, hne]
    rfl
  · rw [read_bare_append h.2, List.nil_append, read, if_neg (by simp), if_neg (by decide),
      if_pos (by decide), hne]
    rfl

theorem read_quoted_append (h : IsQuotable word) :
    read true false acc (word ++ rest) = read true false (acc ++ word) rest := by
  induction word generalizing acc with
  | nil => rw [List.nil_append, List.append_nil]
  | cons c word ih =>
    obtain ⟨hc, hword⟩ := List.forall_mem_cons.mp h
    rw [List.cons_append, read, if_pos rfl, if_neg (by simp), if_neg hc.2.1, if_neg hc.1, ih hword,
      List.append_assoc, List.singleton_append]

/-- **A word in quotes**, whatever follows. -/
theorem read_quoted (h : IsQuotable word) (rest : List Char) :
    read false false [] ('"' :: (word ++ '"' :: rest)) = word :: read false false [] rest := by
  rw [read, if_neg (by simp), if_pos rfl, read_quoted_append h, List.nil_append, read, if_pos rfl,
    if_neg (by simp), if_neg (by decide), if_pos rfl]

/-- A blank between words says nothing. -/
theorem read_blank (rest : List Char) :
    read false false [] (' ' :: rest) = read false false [] rest := by
  rw [read, if_neg (by simp), if_neg (by decide), if_pos (by decide)]
  rfl

end Read

end Words
