import Flannel.Kube.Events
import Flannel.Lib.Pieces
import Flannel.Lib.Search

/-!
# The prefix of the annotation keys

`new_annotations` of `annotations.rs`.  It adds a `/` and a `-` where they are missing and then
looks for

    (?:[a-z0-9_-]+\.)+[a-z0-9_-]+/(?:[a-z0-9_-]+-)?$

in the prefix.  The comment above the expression says what it is for: the prefix must start with a
fully qualified name and hold only lowercase letters, digits, underscores, hyphens, dots and the
slash.  The expression says all of this about the text it matches (`mem_prefixRegex`), but the
search for it may begin anywhere.  What stands in front of the last dot of the name is therefore
looked at only as far as its last character, and `ORG x.com` passes.
-/

namespace Flannel

open RegularExpression Search

namespace Annotations

/-! ## The code -/

/-- `[a-z0-9_-]`. -/
def labelChars : List Char := "abcdefghijklmnopqrstuvwxyz0123456789_-".toList

/-- The expression of `new_annotations`, without the `$` at its end. -/
def prefixRegex : RegularExpression Char :=
  oneOrMore (oneOrMore (oneOf labelChars) * char '.') * oneOrMore (oneOf labelChars) * char '/' *
    optional (oneOrMore (oneOf labelChars) * char '-')

/-- A `/` is appended to a prefix that has none. -/
def addSlash (p : String) : String := if p.toList.count '/' = 0 then p.push '/' else p

/-- The prefix as `new_annotations` completes it. -/
def normalise (p : String) : String :=
  let p := addSlash p
  if p.toList.getLast? ≠ some '/' ∧ p.toList.getLast? ≠ some '-' then p.push '-' else p

/-- `new_annotations`; `re` is the compiled expression. -/
def newAnnotations (re : String → Bool) (p : String) : Except String Annotations :=
  let slashCnt := p.toList.count '/'
  if 1 < slashCnt then .error "subnet/kube: prefix can contain at most single slash"
  else if !re (normalise p) then
    .error "subnet/kube: prefix must be in a format: fqdn/[0-9a-z-_]*"
  else .ok (annotationsWith (normalise p))

/-! ## What a prefix should look like -/

/-- One label of a name. -/
def IsLabel (x : List Char) : Prop := x ≠ [] ∧ ∀ c ∈ x, c ∈ labelChars

instance (x : List Char) : Decidable (IsLabel x) :=
  @instDecidableAnd _ _ inferInstance (List.decidableBAll _ x)

/-- Labels with dots between them. -/
def Dotted (x : List Char) : Prop := ∀ label ∈ x.splitOn '.', IsLabel label

/-- At least two labels with dots between them. -/
def IsFqdn (x : List Char) : Prop := 2 ≤ (x.splitOn '.').length ∧ Dotted x

/-- Nothing, or some characters and a `-` behind them. -/
def IsTail (x : List Char) : Prop := x = [] ∨ ∃ label, IsLabel label ∧ x = label ++ ['-']

/-- The form of a completed prefix. -/
def PrefixForm (x : List Char) : Prop :=
  ∃ host tail, x = host ++ '/' :: tail ∧ IsFqdn host ∧ IsTail tail

/-- A key that Kubernetes takes: the characters of a prefix, and a single slash. -/
def IsKey (key : String) : Prop :=
  (∀ c ∈ key.toList, c ∈ labelChars ∨ c = '.' ∨ c = '/') ∧ key.toList.count '/' = 1

/-- What may stand behind the name in a prefix that is not completed yet. -/
def IsRest (x : List Char) : Prop :=
  x = [] ∨ ∃ t, x = '/' :: t ∧ (∀ c ∈ t, c ∈ labelChars) ∧ t ≠ ['-']

/-- A prefix whose last label, and what stands behind it, are as they should be, with the
character of a label in front of the last dot; `front` is all that stands in front of that dot. -/
def EndsInName (p : String) (front : List Char) : Prop :=
  ∃ label rest, p.toList = front ++ '.' :: (label ++ rest) ∧ '/' ∉ front ∧
    (∃ init, ∃ c ∈ labelChars, front = init ++ [c]) ∧ IsLabel label ∧ IsRest rest

/-- The same where the text in front of the last dot is not made of labels. -/
def StrayFront (p : String) : Prop := ∃ front, EndsInName p front ∧ ¬ Dotted front

/-! ## Labels and dots -/

theorem dot_notMem_labelChars : '.' ∉ labelChars := by decide

theorem slash_notMem_labelChars : '/' ∉ labelChars := by decide

theorem minus_mem_labelChars : '-' ∈ labelChars := by decide

theorem IsLabel.notMem {x : List Char} (h : IsLabel x) {c : Char} (hc : c ∉ labelChars) : c ∉ x :=
  fun hmem => hc (h.2 c hmem)

theorem Dotted.mem {x : List Char} (h : Dotted x) {c : Char} (hc : c ∈ x) :
    c ∈ labelChars ∨ c = '.' := by
  by_cases hdot : c = '.'
  · exact .inr hdot
  · have hpiece : ∃ piece ∈ x.splitOn '.', c ∈ piece :=
      Pieces.exists_mem_splitOnP hc (by simpa using hdot)
    obtain ⟨piece, hpiece, hin⟩ := hpiece
    exact .inl ((h piece hpiece).2 c hin)

theorem IsLabel.dotted {x : List Char} (h : IsLabel x) : Dotted x := by
  intro piece hpiece
  rw [List.splitOn_eq_singleton (h.notMem dot_notMem_labelChars)] at hpiece
  rwa [List.mem_singleton.mp hpiece]

theorem dotted_append {x y : List Char} : Dotted (x ++ '.' :: y) ↔ Dotted x ∧ Dotted y := by
  unfold Dotted
  rw [List.splitOn_append_cons_self, List.forall_mem_append]

/-- Labels with dots between them end in the character of a label. -/
theorem Dotted.exists_last {x : List Char} (h : Dotted x) :
    ∃ init, ∃ c ∈ labelChars, x = init ++ [c] := by
  rcases List.eq_nil_or_concat x with rfl | ⟨init, c, rfl⟩
  · exact absurd rfl (h [] (by simp)).1
  · rw [List.concat_eq_append] at h ⊢
    rcases h.mem (c := c) (by simp) with hc | rfl
    · exact ⟨init, c, hc, rfl⟩
    · exact absurd rfl ((dotted_append.mp h).2 [] (by simp)).1

theorem isFqdn_iff {x : List Char} :
    IsFqdn x ↔ ∃ front label, x = front ++ '.' :: label ∧ Dotted front ∧ IsLabel label := by
  constructor
  · rintro ⟨hlen, hdotted⟩
    have hdot : '.' ∈ x := by
      by_contra hdot
      rw [List.splitOn_eq_singleton hdot, List.length_singleton] at hlen
      omega
    obtain ⟨front, label, rfl, hlabel⟩ := Pieces.exists_last hdot
    obtain ⟨hfront, hback⟩ := dotted_append.mp hdotted
    refine ⟨front, label, rfl, hfront, hback label ?_⟩
    rw [List.splitOn_eq_singleton hlabel]
    exact List.mem_singleton_self label
  · rintro ⟨front, label, rfl, hfront, hlabel⟩
    refine ⟨?_, dotted_append.mpr ⟨hfront, hlabel.dotted⟩⟩
    have hpos : 0 < (front.splitOn '.').length :=
      List.length_pos_iff.mpr (List.splitOn_ne_nil '.' front)
    rw [List.splitOn_append_cons_self,
      List.splitOn_eq_singleton (hlabel.notMem dot_notMem_labelChars), List.length_append,
      List.length_singleton]
    omega

theorem IsFqdn.slash_notMem {x : List Char} (h : IsFqdn x) : '/' ∉ x := by
  intro hmem
  rcases h.2.mem hmem with hlabel | hdot
  · exact slash_notMem_labelChars hlabel
  · exact absurd hdot (by decide)

theorem IsTail.mem {x : List Char} (h : IsTail x) {c : Char} (hc : c ∈ x) : c ∈ labelChars := by
  rcases h with rfl | ⟨label, hlabel, rfl⟩
  · cases hc
  · rcases List.mem_append.mp hc with hmem | hmem
    · exact hlabel.2 c hmem
    · rw [List.mem_singleton.mp hmem]
      exact minus_mem_labelChars

/-! ## What the expression matches -/

theorem mem_label {x : List Char} : x ∈ (oneOrMore (oneOf labelChars)).matches' ↔ IsLabel x :=
  mem_oneOrMore_oneOf

theorem mem_labelDot {x : List Char} :
    x ∈ (oneOrMore (oneOf labelChars) * char '.').matches' ↔
      ∃ label, IsLabel label ∧ x = label ++ ['.'] := by
  rw [matches'_mul, Language.mem_mul]
  constructor
  · rintro ⟨label, hlabel, dot, rfl, rfl⟩
    exact ⟨label, mem_label.mp hlabel, rfl⟩
  · rintro ⟨label, hlabel, rfl⟩
    exact ⟨label, mem_label.mpr hlabel, ['.'], rfl, rfl⟩

/-- Labels with a dot behind each. -/
theorem mem_dottedLabels {x : List Char} :
    x ∈ (oneOrMore (oneOrMore (oneOf labelChars) * char '.')).matches' ↔
      ∃ front, x = front ++ ['.'] ∧ Dotted front := by
  rw [mem_oneOrMore]
  constructor
  · rintro ⟨parts, hne, rfl, hparts⟩
    induction parts with
    | nil => exact absurd rfl hne
    | cons part parts ih =>
      obtain ⟨hfirst, hrest⟩ := List.forall_mem_cons.mp hparts
      obtain ⟨label, hlabel, rfl⟩ := mem_labelDot.mp hfirst
      cases parts with
      | nil => exact ⟨label, by simp, hlabel.dotted⟩
      | cons second others =>
        obtain ⟨front, hfront, hdotted⟩ := ih (List.cons_ne_nil _ _) hrest
        refine ⟨label ++ '.' :: front, ?_, dotted_append.mpr ⟨hlabel.dotted, hdotted⟩⟩
        rw [List.flatten_cons, hfront]
        simp
  · rintro ⟨front, rfl, hdotted⟩
    refine ⟨(front.splitOn '.').map (· ++ ['.']), ?_, ?_, ?_⟩
    · simp
    · rw [← Pieces.intercalate_append_separator (List.splitOn_ne_nil '.' front),
        List.intercalate_splitOn]
    · intro y hy
      obtain ⟨label, hlabel, rfl⟩ := List.mem_map.mp hy
      exact mem_labelDot.mpr ⟨label, hdotted label hlabel, rfl⟩

/-- **The expression matches the texts of the documented form**, as a whole. -/
theorem mem_prefixRegex {x : List Char} : x ∈ prefixRegex.matches' ↔ PrefixForm x := by
  unfold prefixRegex
  simp only [matches'_mul, Language.mem_mul, mem_optional]
  constructor
  · rintro ⟨_, ⟨_, ⟨dotted, hdotted, label, hlabel, rfl⟩, slash, rfl, rfl⟩, tail, htail, rfl⟩
    obtain ⟨front, rfl, hfront⟩ := mem_dottedLabels.mp hdotted
    refine ⟨front ++ '.' :: label, tail, by simp,
      isFqdn_iff.mpr ⟨front, label, rfl, hfront, mem_label.mp hlabel⟩, ?_⟩
    rcases htail with ⟨word, hword, minus, rfl, rfl⟩ | rfl
    · exact .inr ⟨word, mem_label.mp hword, rfl⟩
    · exact .inl rfl
  · rintro ⟨host, tail, rfl, hhost, htail⟩
    obtain ⟨front, label, rfl, hfront, hlabel⟩ := isFqdn_iff.mp hhost
    refine ⟨front ++ ['.'] ++ label ++ ['/'], ⟨front ++ ['.'] ++ label, ⟨front ++ ['.'],
      mem_dottedLabels.mpr ⟨front, rfl, hfront⟩, label, mem_label.mpr hlabel, rfl⟩, ['/'], rfl,
      rfl⟩, tail, ?_, by simp⟩
    rcases htail with rfl | ⟨word, hword, rfl⟩
    · exact .inr rfl
    · exact .inl ⟨word, mem_label.mpr hword, ['-'], rfl, rfl⟩

/-! ## Completing a prefix -/

/-- What the completed prefix has behind its slash. -/
def completedTail : List Char → List Char
  | [] => []
  | _ :: t => if t = [] ∨ t.getLast? = some '-' then t else t ++ ['-']

/-- What stands behind a text without a slash in a prefix with at most one. -/
def AtSlash (rest : List Char) : Prop := rest = [] ∨ ∃ t, rest = '/' :: t ∧ '/' ∉ t

theorem IsRest.atSlash {rest : List Char} (h : IsRest rest) : AtSlash rest := by
  rcases h with rfl | ⟨t, rfl, ht, -⟩
  · exact .inl rfl
  · exact .inr ⟨t, rfl, fun hmem => slash_notMem_labelChars (ht _ hmem)⟩

theorem count_slash {p : String} {x rest : List Char} (hp : p.toList = x ++ rest)
    (hx : '/' ∉ x) (hrest : AtSlash rest) : p.toList.count '/' ≤ 1 := by
  rw [hp, List.count_append, List.count_eq_zero.mpr hx]
  rcases hrest with rfl | ⟨t, rfl, ht⟩
  · simp
  · rw [List.count_cons_self, List.count_eq_zero.mpr ht]

/-- Every prefix with at most one slash falls into what stands in front of it and the rest. -/
theorem exists_atSlash {p : String} (h : p.toList.count '/' ≤ 1) :
    ∃ x rest, p.toList = x ++ rest ∧ '/' ∉ x ∧ AtSlash rest := by
  by_cases hmem : '/' ∈ p.toList
  · obtain ⟨x, t, hp, hx⟩ := List.eq_append_cons_of_mem hmem
    refine ⟨x, '/' :: t, hp, hx, .inr ⟨t, rfl, ?_⟩⟩
    rw [hp, List.count_append, List.count_cons_self] at h
    exact List.count_eq_zero.mp (by omega)
  · exact ⟨p.toList, [], by simp, hmem, .inl rfl⟩

theorem toList_normalise {p : String} {x rest : List Char} (hp : p.toList = x ++ rest)
    (hx : '/' ∉ x) (hrest : AtSlash rest) :
    (normalise p).toList = x ++ '/' :: completedTail rest := by
  rcases hrest with rfl | ⟨t, rfl, ht⟩
  · rw [List.append_nil] at hp
    have hslash : (addSlash p).toList = x ++ ['/'] := by
      rw [addSlash, hp, if_pos (List.count_eq_zero.mpr hx), String.toList_push, hp]
    simp only [normalise, hslash, List.getLast?_concat, completedTail]
    rw [if_neg (fun h => h.1 rfl), hslash]
  · have hslash : addSlash p = p := by
      rw [addSlash, if_neg]
      rw [hp, List.count_append, List.count_cons_self]
      omega
    have hlast : p.toList.getLast? = some (t.getLast?.getD '/') := by
      rw [hp, List.getLast?_append, List.getLast?_cons, Option.some_or]
    simp only [normalise, hslash, hlast, completedTail]
    rcases List.eq_nil_or_concat t with rfl | ⟨init, c, rfl⟩
    · simpa using hp
    · have hc : c ≠ '/' := by
        rintro rfl
        exact ht (by simp)
      rw [List.concat_eq_append] at hp ⊢
      simp only [List.getLast?_concat, Option.getD_some, List.append_eq_nil_iff,
        List.cons_ne_self, and_false, false_or, Option.some.injEq]
      by_cases hminus : c = '-'
      · simp [hminus, hp]
      · simp [hminus, hc, hp]

theorem isTail_concat {x : List Char} : IsTail (x ++ ['-']) ↔ IsLabel x := by
  constructor
  · rintro (hnil | ⟨label, hlabel, hx⟩)
    · exact absurd hnil (by simp)
    · rwa [List.append_cancel_right hx]
  · intro hx
    exact .inr ⟨x, hx, rfl⟩

theorem isTail_completedTail_iff {rest : List Char} (hrest : AtSlash rest) :
    IsTail (completedTail rest) ↔ IsRest rest := by
  rcases hrest with rfl | ⟨t, rfl, -⟩
  · exact ⟨fun _ => .inl rfl, fun _ => .inl rfl⟩
  have hiff : IsRest ('/' :: t) ↔ (∀ c ∈ t, c ∈ labelChars) ∧ t ≠ ['-'] := by
    simp [IsRest]
  rw [hiff, completedTail]
  rcases List.eq_nil_or_concat t with rfl | ⟨init, c, rfl⟩
  · simp [IsTail]
  rw [List.concat_eq_append, List.getLast?_concat]
  by_cases hminus : c = '-'
  · subst hminus
    rw [if_pos (.inr rfl), isTail_concat, IsLabel, List.forall_mem_append]
    have hne : init ++ ['-'] ≠ ['-'] ↔ init ≠ [] := by simp
    rw [hne]
    constructor
    · rintro ⟨hinit, hall⟩
      exact ⟨⟨hall, by simp [minus_mem_labelChars]⟩, hinit⟩
    · rintro ⟨⟨hall, -⟩, hinit⟩
      exact ⟨hinit, hall⟩
  · have hneq : init ++ [c] ≠ ['-'] := by
      intro heq
      have hlast := congrArg List.getLast? heq
      rw [List.getLast?_concat, List.getLast?_singleton] at hlast
      exact hminus (Option.some.inj hlast)
    rw [if_neg (by simp [hminus]), isTail_concat]
    constructor
    · rintro ⟨-, hall⟩
      exact ⟨hall, hneq⟩
    · rintro ⟨hall, -⟩
      exact ⟨by simp, hall⟩

theorem count_addSlash (p : String) :
    (addSlash p).toList.count '/' = max 1 (p.toList.count '/') := by
  unfold addSlash
  split_ifs with h
  · rw [String.toList_push, List.count_append, h]
    rfl
  · omega

theorem count_normalise (p : String) :
    (normalise p).toList.count '/' = max 1 (p.toList.count '/') := by
  rw [← count_addSlash]
  unfold normalise
  simp only
  split_ifs with h
  · rw [String.toList_push, List.count_append]
    rfl
  · rfl

/-- Completing a prefix twice is completing it once. -/
theorem normalise_normalise (p : String) : normalise (normalise p) = normalise p := by
  have hslash : addSlash (normalise p) = normalise p := by
    rw [addSlash, if_neg]
    rw [count_normalise]
    omega
  have hlast : ¬ ((normalise p).toList.getLast? ≠ some '/' ∧
      (normalise p).toList.getLast? ≠ some '-') := by
    rw [normalise]
    split_ifs with h
    · rw [String.toList_push, List.getLast?_concat]
      exact fun hne => hne.2 rfl
    · exact h
  rw [normalise, hslash, if_neg hlast]

/-! ## What is accepted -/

section Accepted

variable {re : String → Bool} {p : String} {a : Annotations}

theorem newAnnotations_eq_ok_iff :
    newAnnotations re p = .ok a ↔
      p.toList.count '/' ≤ 1 ∧ re (normalise p) = true ∧ a = annotationsWith (normalise p) := by
  simp only [newAnnotations]
  by_cases hslash : 1 < p.toList.count '/'
  · rw [if_pos hslash]
    constructor
    · intro h
      cases h
    · rintro ⟨hle, -⟩
      omega
  · rw [if_neg hslash]
    cases re (normalise p) with
    | false => simp
    | true =>
      have hle : p.toList.count '/' ≤ 1 := Nat.not_lt.mp hslash
      simp [hle, eq_comm]

theorem newAnnotations_normalise (re : String → Bool) (p : String) :
    newAnnotations re (normalise p) = newAnnotations re p := by
  have hslash : 1 < max 1 (p.toList.count '/') ↔ 1 < p.toList.count '/' := by omega
  simp only [newAnnotations, count_normalise, normalise_normalise, hslash]

theorem PrefixForm.count_slash {x : List Char} (h : PrefixForm x) : x.count '/' = 1 := by
  obtain ⟨host, tail, rfl, hhost, htail⟩ := h
  have htail' : '/' ∉ tail := fun hmem => slash_notMem_labelChars (htail.mem hmem)
  rw [List.count_append, List.count_cons_self, List.count_eq_zero.mpr hhost.slash_notMem,
    List.count_eq_zero.mpr htail']

/-- Where the documented form stands at the end of the completed prefix, the prefix ends in a
name, and there are only labels in front of its last dot as far as the form goes. -/
theorem prefixForm_at_end_iff (before : List Char) :
    p.toList.count '/' ≤ 1 ∧ (∃ found, (normalise p).toList = before ++ found ∧ PrefixForm found) ↔
      ∃ front, EndsInName p (before ++ front) ∧ Dotted front := by
  constructor
  · rintro ⟨hcount, found, hfound, host, tail, rfl, hhost, htail⟩
    obtain ⟨x, rest, hx, hslash, hrest⟩ := exists_atSlash hcount
    rw [toList_normalise hx hslash hrest, ← List.append_assoc] at hfound
    have hrestTail : '/' ∉ completedTail rest := by
      intro hmem
      have hone := count_normalise p
      rw [toList_normalise hx hslash hrest, List.count_append, List.count_cons_self,
        List.count_eq_zero.mpr hslash] at hone
      have hpos : 0 < (completedTail rest).count '/' := List.count_pos_iff.mpr hmem
      omega
    obtain ⟨rfl, -, rfl⟩ := (List.append_cons_inj_of_notMem hslash hrestTail).mp hfound
    obtain ⟨front, label, rfl, hfront, hlabel⟩ := isFqdn_iff.mp hhost
    obtain ⟨init, c, hc, hlast⟩ := hfront.exists_last
    refine ⟨front, ⟨label, rest, ?_, ?_, ⟨before ++ init, c, hc, ?_⟩, hlabel,
      (isTail_completedTail_iff hrest).mp htail⟩, hfront⟩
    · rw [hx]
      simp
    · intro hmem
      refine hslash ?_
      rw [← List.append_assoc]
      exact List.mem_append_left _ hmem
    · rw [hlast, List.append_assoc]
  · rintro ⟨front, ⟨label, rest, hp, hslash, -, hlabel, hrest⟩, hfront⟩
    have hx : p.toList = (before ++ (front ++ '.' :: label)) ++ rest := by
      rw [hp]
      simp
    have hhost : IsFqdn (front ++ '.' :: label) :=
      isFqdn_iff.mpr ⟨front, label, rfl, hfront, hlabel⟩
    have hslash' : '/' ∉ before ++ (front ++ '.' :: label) := by
      rw [List.mem_append] at hslash ⊢
      rintro (hmem | hmem)
      · exact hslash (.inl hmem)
      · exact hhost.slash_notMem hmem
    refine ⟨count_slash hx hslash' hrest.atSlash, (front ++ '.' :: label) ++ '/' ::
      completedTail rest, ?_, _, _, rfl, hhost, (isTail_completedTail_iff hrest.atSlash).mpr hrest⟩
    rw [toList_normalise hx hslash' hrest.atSlash, List.append_assoc]

/-- The completed prefix has the documented form if its end has it and nothing but labels stands
in front. -/
theorem prefixForm_normalise_iff :
    PrefixForm (normalise p).toList ↔ ∃ front, EndsInName p front ∧ Dotted front := by
  constructor
  · intro h
    have hone := h.count_slash
    rw [count_normalise] at hone
    have hcount : p.toList.count '/' ≤ 1 := by omega
    exact (prefixForm_at_end_iff []).mp ⟨hcount, _, (List.nil_append _).symm, h⟩
  · intro h
    obtain ⟨-, found, hfound, hform⟩ := (prefixForm_at_end_iff []).mpr h
    rwa [hfound]

/-- **A prefix is accepted exactly if it ends in a name**, whatever stands in front. -/
theorem accepted_iff (hre : ∀ s, re s = true ↔ FoundAtEnd prefixRegex s.toList) :
    (∃ a, newAnnotations re p = .ok a) ↔ ∃ front, EndsInName p front := by
  simp only [newAnnotations_eq_ok_iff, hre, FoundAtEnd, mem_prefixRegex]
  constructor
  · rintro ⟨-, hcount, ⟨before, found, hfound, hform⟩, -⟩
    obtain ⟨front, hends, -⟩ := (prefixForm_at_end_iff before).mp ⟨hcount, found, hfound, hform⟩
    exact ⟨before ++ front, hends⟩
  · rintro ⟨front, hends⟩
    obtain ⟨label, rest, -, -, ⟨before, c, hc, rfl⟩, -⟩ := id hends
    have hlabel : IsLabel [c] := ⟨List.cons_ne_nil _ _, by simpa using hc⟩
    obtain ⟨hcount, found, hfound, hform⟩ :=
      (prefixForm_at_end_iff before).mpr ⟨[c], hends, hlabel.dotted⟩
    exact ⟨_, hcount, ⟨before, found, hfound, hform⟩, rfl⟩

theorem IsRest.dot_notMem {rest : List Char} (h : IsRest rest) : '.' ∉ rest := by
  rcases h with rfl | ⟨t, rfl, ht, -⟩
  · exact List.not_mem_nil
  · intro hmem
    rcases List.mem_cons.mp hmem with hslash | hmem
    · exact absurd hslash (by decide)
    · exact dot_notMem_labelChars (ht _ hmem)

/-- What stands in front of the last dot is determined by the prefix. -/
theorem EndsInName.unique {front front' : List Char} (h : EndsInName p front)
    (h' : EndsInName p front') : front = front' := by
  obtain ⟨label, rest, hp, -, -, hlabel, hrest⟩ := h
  obtain ⟨label', rest', hp', -, -, hlabel', hrest'⟩ := h'
  have hback : '.' ∉ label ++ rest := fun hmem =>
    (List.mem_append.mp hmem).elim (hlabel.notMem dot_notMem_labelChars) hrest.dot_notMem
  have hback' : '.' ∉ label' ++ rest' := fun hmem =>
    (List.mem_append.mp hmem).elim (hlabel'.notMem dot_notMem_labelChars) hrest'.dot_notMem
  exact Pieces.front_eq_of_last (hp.symm.trans hp') hback hback'

/-! ## The keys -/

theorem PrefixForm.mem {x : List Char} (h : PrefixForm x) {c : Char} (hc : c ∈ x) :
    c ∈ labelChars ∨ c = '.' ∨ c = '/' := by
  obtain ⟨host, tail, rfl, hhost, htail⟩ := h
  rcases List.mem_append.mp hc with hmem | hmem
  · exact (hhost.2.mem hmem).imp_right .inl
  · rcases List.mem_cons.mp hmem with hslash | hmem
    · exact .inr (.inr hslash)
    · exact .inl (htail.mem hmem)

/-- What the keys have behind the prefix. -/
def keyNames : List String :=
  ["kube-subnet-manager", "backend-data", "backend-v6-data", "backend-type", "public-ip",
    "public-ipv6", "node-public-ip", "node-public-ipv6", "public-ip-overwrite",
    "public-ipv6-overwrite"]

theorem isLabel_of_mem_keyNames : ∀ name ∈ keyNames, IsLabel name.toList := by
  decide +kernel

theorem keys_annotationsWith (pre : String) :
    (annotationsWith pre).keys = keyNames.map (pre ++ ·) := rfl

theorem PrefixForm.isKey {pre key : String} (h : PrefixForm pre.toList)
    (hkey : key ∈ (annotationsWith pre).keys) : IsKey key := by
  rw [keys_annotationsWith] at hkey
  obtain ⟨name, hmem, rfl⟩ := List.mem_map.mp hkey
  have hname := isLabel_of_mem_keyNames name hmem
  have hslash : '/' ∉ name.toList := hname.notMem slash_notMem_labelChars
  constructor
  · intro c hc
    rw [String.toList_append] at hc
    rcases List.mem_append.mp hc with hmem | hmem
    · exact h.mem hmem
    · exact .inl (hname.2 c hmem)
  · rw [String.toList_append, List.count_append, h.count_slash, List.count_eq_zero.mpr hslash]

/-- **Prefixes are judged as documented exactly if nothing stray stands in front of the name**: one
that ends in a name is accepted whatever it begins with. -/
theorem prefix_rules_iff (hre : ∀ s, re s = true ↔ FoundAtEnd prefixRegex s.toList) :
    (((∃ a, newAnnotations re p = .ok a) ↔ PrefixForm (normalise p).toList) ∧
      (∀ a, newAnnotations re p = .ok a → ∀ key ∈ a.keys, IsKey key) ∧
      newAnnotations re (normalise p) = newAnnotations re p) ↔
    ¬ StrayFront p := by
  constructor
  · rintro ⟨hexact, -⟩ ⟨front, hends, hstray⟩
    obtain ⟨front', hends', hdotted⟩ :=
      prefixForm_normalise_iff.mp (hexact.mp ((accepted_iff hre).mpr ⟨front, hends⟩))
    rw [hends.unique hends'] at hstray
    exact hstray hdotted
  · intro hstray
    have hform (haccepted : ∃ a, newAnnotations re p = .ok a) :
        PrefixForm (normalise p).toList := by
      obtain ⟨front, hends⟩ := (accepted_iff hre).mp haccepted
      refine prefixForm_normalise_iff.mpr ⟨front, hends, ?_⟩
      by_contra hdotted
      exact hstray ⟨front, hends, hdotted⟩
    refine ⟨⟨hform, fun h => ?_⟩, fun a ha key hkey => ?_, newAnnotations_normalise re p⟩
    · obtain ⟨front, hends, -⟩ := prefixForm_normalise_iff.mp h
      exact (accepted_iff hre).mpr ⟨front, hends⟩
    · obtain ⟨-, -, rfl⟩ := newAnnotations_eq_ok_iff.mp ha
      exact (hform ⟨_, ha⟩).isKey hkey

end Accepted

/-- The search for the expression. -/
def searchPrefix (s : String) : Bool := findAtEnd prefixRegex s.toList

theorem prefix_rules_iff_default :
    ((∃ a, newAnnotations searchPrefix "flannel.alpha.coreos.com" = .ok a) ↔
        PrefixForm (normalise "flannel.alpha.coreos.com").toList) ∧
      (∀ a, newAnnotations searchPrefix "flannel.alpha.coreos.com" = .ok a →
        ∀ key ∈ a.keys, IsKey key) ∧
      newAnnotations searchPrefix (normalise "flannel.alpha.coreos.com") =
        newAnnotations searchPrefix "flannel.alpha.coreos.com" := by
  refine (prefix_rules_iff fun s => findAtEnd_iff).mpr ?_
  rintro ⟨front, hends, hdotted⟩
  have hends' : EndsInName "flannel.alpha.coreos.com" "flannel.alpha.coreos".toList :=
    ⟨"com".toList, [], by rfl, by decide, ⟨"flannel.alpha.coreo".toList, 's', by decide, by rfl⟩,
      by decide, .inl rfl⟩
  rw [hends.unique hends'] at hdotted
  refine hdotted fun label hlabel => ?_
  have hsplit : "flannel.alpha.coreos".toList.splitOn '.' =
      ["flannel".toList, "alpha".toList, "coreos".toList] := by rfl
  rw [hsplit] at hlabel
  simp only [List.mem_cons, List.not_mem_nil, or_false] at hlabel
  rcases hlabel with rfl | rfl | rfl
  · decide
  · decide
  · decide

/-- `ORG x.com` is accepted, and its keys hold capitals and a blank. -/
theorem stray_front_is_accepted :
    newAnnotations searchPrefix "ORG x.com" = .ok (annotationsWith "ORG x.com/") ∧
      ¬ PrefixForm (normalise "ORG x.com").toList ∧
      ¬ IsKey (annotationsWith "ORG x.com/").backendType := by
  have hnormalise : normalise "ORG x.com" = "ORG x.com/" := by decide
  refine ⟨newAnnotations_eq_ok_iff.mpr ⟨by decide, ?_, by rw [hnormalise]⟩, fun h => ?_,
    fun h => ?_⟩
  · refine findAtEnd_iff.mpr ⟨"ORG ".toList, "x.com/".toList, by rw [hnormalise]; rfl, ?_⟩
    refine mem_prefixRegex.mpr ⟨"x.com".toList, [], by rfl, isFqdn_iff.mpr ?_, .inl rfl⟩
    have hx : IsLabel ['x'] := by decide
    exact ⟨['x'], "com".toList, by rfl, hx.dotted, by decide⟩
  · rw [hnormalise] at h
    exact absurd (h.mem (c := 'O') (by decide)) (by decide)
  · exact absurd (h.1 'O' (by decide)) (by decide)

end Annotations

end Flannel
