import Flannel.Ip.Net

/-!
# Printed addresses read back

Flannel hands addresses on as texts: in annotations, in firewall rules, in endpoints.
This file shows that the text of an address, or of a network, reads back as the address
or the network.

Every reader of the standard library consumes a prefix and leaves the rest, so the
lemmas have a rest too: *the printed text followed by `rest` is read up to `rest`*.  A
rest must not continue the text.  For a number this means that no digit follows; for the
groups of an IPv6 address also that no dot follows, which would make the last group the
first octet of a dotted address, and no further group (`Stops`).  The rest `::` of a
compressed address stops the groups before it.
-/

namespace Flannel
namespace StdAddr

/-! ## Digits -/

section Digits

variable {r n : Nat}

theorem toDigit_digitChar {d : Nat} (hr : r ≤ 16) (hd : d < r) :
    toDigit r (Nat.digitChar d) = some d := by
  have hall : ∀ r ≤ 16, ∀ d < r, toDigit r (Nat.digitChar d) = some d := by decide
  exact hall r hr d hd

theorem digitsValue_append_one (r : Nat) (ds : List Char) (c : Char) :
    digitsValue r (ds ++ [c]) = digitsValue r ds * r + (toDigit r c).getD 0 := by
  simp [digitsValue, List.foldl_append]

/-- A printed number has its value. -/
theorem digitsValue_toDigits (h2 : 2 ≤ r) (hr : r ≤ 16) : digitsValue r (Nat.toDigits r n) = n := by
  induction n using Nat.strongRecOn with
  | _ n ih =>
    rw [Nat.toDigits_eq_if (by omega)]
    split
    · rename_i hn
      simp [digitsValue, toDigit_digitChar hr hn]
    · rename_i hn
      have hmod : n % r < r := Nat.mod_lt _ (by omega)
      have hdiv : n / r < n := Nat.div_lt_self (by omega) (by omega)
      rw [digitsValue_append_one, ih _ hdiv, toDigit_digitChar hr hmod]
      exact Nat.div_add_mod' n r

/-- A printed number consists of digits. -/
theorem isSome_toDigit_of_mem (h2 : 2 ≤ r) (hr : r ≤ 16) {c : Char} (hc : c ∈ Nat.toDigits r n) :
    (toDigit r c).isSome = true := by
  induction n using Nat.strongRecOn with
  | _ n ih =>
    rw [Nat.toDigits_eq_if (by omega)] at hc
    split at hc
    · rename_i hn
      rw [List.mem_singleton.mp hc, toDigit_digitChar hr hn]
      rfl
    · rename_i hn
      rcases List.mem_append.mp hc with hc | hc
      · exact ih _ (Nat.div_lt_self (by omega) (by omega)) hc
      · rw [List.mem_singleton.mp hc, toDigit_digitChar hr (Nat.mod_lt _ (by omega))]
        rfl

theorem head_toDigits_ne_zero (h2 : 2 ≤ r) (hr : r ≤ 16) (hn : 0 < n) :
    (Nat.toDigits r n).head? ≠ some '0' := by
  induction n using Nat.strongRecOn with
  | _ n ih =>
    rw [Nat.toDigits_eq_if (by omega)]
    split
    · rename_i hlt
      intro hzero
      have hdigit := toDigit_digitChar hr hlt
      rw [Option.some.inj hzero] at hdigit
      have hz : toDigit r '0' = some 0 := toDigit_digitChar hr (show 0 < r by omega)
      rw [hz] at hdigit
      have := Option.some.inj hdigit
      omega
    · rename_i hle
      have hdiv : 0 < n / r := Nat.div_pos (by omega) (by omega)
      rw [List.head?_append_of_ne_nil _ Nat.toDigits_ne_nil]
      exact ih _ (Nat.div_lt_self hn (by omega)) hdiv

/-- A printed number with more than one digit does not begin with a zero. -/
theorem not_zero_prefix (h2 : 2 ≤ r) (hr : r ≤ 16) :
    ¬ ((Nat.toDigits r n).head? = some '0' ∧ 1 < (Nat.toDigits r n).length) := by
  rintro ⟨hzero, hlen⟩
  rcases Nat.eq_zero_or_pos n with rfl | hn
  · rw [Nat.toDigits_of_lt_base (by omega)] at hlen
    exact absurd hlen (by simp)
  · exact head_toDigits_ne_zero h2 hr hn hzero

/-- No digit follows. -/
def NoDigit (r : Nat) (rest : List Char) : Prop := ∀ c, rest.head? = some c → toDigit r c = none

theorem NoDigit.takeWhile {rest : List Char} (h : NoDigit r rest) :
    rest.takeWhile (fun c => (toDigit r c).isSome) = [] ∧
      rest.dropWhile (fun c => (toDigit r c).isSome) = rest := by
  cases rest with
  | nil => simp
  | cons c rest =>
    have hc : toDigit r c = none := h c rfl
    simp [hc]

theorem takeWhile_digits {ds rest : List Char} (hds : ∀ c ∈ ds, (toDigit r c).isSome = true)
    (hrest : NoDigit r rest) :
    (ds ++ rest).takeWhile (fun c => (toDigit r c).isSome) = ds ∧
      (ds ++ rest).dropWhile (fun c => (toDigit r c).isSome) = rest := by
  rw [List.takeWhile_append_of_pos hds, List.dropWhile_append_of_pos hds, hrest.takeWhile.1,
    hrest.takeWhile.2, List.append_nil]
  exact ⟨rfl, rfl⟩

/-- **A printed number reads back.** -/
theorem readNumber_toDigits {maxDigits bound : Nat} {allowZeroPrefix : Bool} {rest : List Char}
    (h2 : 2 ≤ r) (hr : r ≤ 16) (hlen : (Nat.toDigits r n).length ≤ maxDigits) (hn : n < bound)
    (hrest : NoDigit r rest) :
    readNumber r maxDigits allowZeroPrefix bound (Nat.toDigits r n ++ rest) = some (n, rest) := by
  have hds : ∀ c ∈ Nat.toDigits r n, (toDigit r c).isSome = true :=
    fun c hc => isSome_toDigit_of_mem h2 hr hc
  obtain ⟨htake, hdrop⟩ := takeWhile_digits hds hrest
  have hpos : (Nat.toDigits r n).length ≠ 0 := by
    simp [Nat.toDigits_ne_nil]
  unfold readNumber
  simp only [htake, hdrop, digitsValue_toDigits h2 hr]
  rw [if_neg (by omega), if_neg hpos, if_neg, if_pos hn]
  intro hzero
  simp only [Bool.and_eq_true, beq_iff_eq, decide_eq_true_eq] at hzero
  exact not_zero_prefix h2 hr ⟨hzero.1.2, hzero.2⟩

end Digits

/-! ## IPv4 -/

theorem showIpv4_toList (a : BitVec 32) :
    (showIpv4 a).toList =
      Nat.toDigits 10 (a.toNat / 16777216) ++ '.' :: (Nat.toDigits 10 (a.toNat / 65536 % 256) ++
        '.' :: (Nat.toDigits 10 (a.toNat / 256 % 256) ++
          '.' :: Nat.toDigits 10 (a.toNat % 256))) := by
  simp [showIpv4, String.toList_append, toString, Nat.toList_repr]

/-- What follows a printed IPv4 address. -/
theorem noDigit_dot (rest : List Char) : NoDigit 10 ('.' :: rest) := by
  intro c hc
  cases hc
  decide

theorem length_octet_le {n : Nat} (hn : n < 256) : (Nat.toDigits 10 n).length ≤ 3 :=
  (Nat.length_toDigits_le_iff (by omega) (by omega)).mpr (by omega)

theorem readOctet_first {n : Nat} {rest : List Char} (hn : n < 256) (hrest : NoDigit 10 rest) :
    readOctet 0 (Nat.toDigits 10 n ++ rest) = some (n, rest) := by
  unfold readOctet readSeparator
  rw [if_neg (by omega)]
  exact readNumber_toDigits (by omega) (by omega) (length_octet_le hn) hn hrest

theorem readOctet_next {i n : Nat} {rest : List Char} (hi : 0 < i) (hn : n < 256)
    (hrest : NoDigit 10 rest) :
    readOctet i ('.' :: (Nat.toDigits 10 n ++ rest)) = some (n, rest) := by
  unfold readOctet readSeparator
  rw [if_pos hi]
  simp only [readGivenChar, if_true, Option.bind_some]
  exact readNumber_toDigits (by omega) (by omega) (length_octet_le hn) hn hrest

/-- **A printed IPv4 address reads back.** -/
theorem readIpv4Addr_showIpv4 (a : BitVec 32) {rest : List Char} (hrest : NoDigit 10 rest) :
    readIpv4Addr ((showIpv4 a).toList ++ rest) = some (a, rest) := by
  have hlt := a.isLt
  have hvalue : BitVec.ofNat 32 (((a.toNat / 16777216 * 256 + a.toNat / 65536 % 256) * 256 +
      a.toNat / 256 % 256) * 256 + a.toNat % 256) = a := by
    apply BitVec.eq_of_toNat_eq
    rw [BitVec.toNat_ofNat]
    omega
  rw [showIpv4_toList]
  simp only [List.append_assoc, List.cons_append]
  unfold readIpv4Addr
  simp only [readOctet_first (show a.toNat / 16777216 < 256 by omega) (noDigit_dot _),
    readOctet_next (show 0 < 1 by omega) (show a.toNat / 65536 % 256 < 256 by omega)
      (noDigit_dot _),
    readOctet_next (show 0 < 2 by omega) (show a.toNat / 256 % 256 < 256 by omega)
      (noDigit_dot _),
    readOctet_next (show 0 < 3 by omega) (show a.toNat % 256 < 256 by omega) hrest, bind,
    Option.bind_some, hvalue]
  rfl

theorem noDigit_nil (r : Nat) : NoDigit r [] := by
  intro c hc
  cases hc

theorem length_showIpv4_le (a : BitVec 32) : (showIpv4 a).toList.length ≤ 15 := by
  have hlt := a.isLt
  have h1 := length_octet_le (show a.toNat / 16777216 < 256 by omega)
  have h2 := length_octet_le (show a.toNat / 65536 % 256 < 256 by omega)
  have h3 := length_octet_le (show a.toNat / 256 % 256 < 256 by omega)
  have h4 := length_octet_le (show a.toNat % 256 < 256 by omega)
  rw [showIpv4_toList]
  simp only [List.length_append, List.length_cons]
  omega

theorem parseIpv4_showIpv4 (a : BitVec 32) : parseIpv4 (showIpv4 a) = some a := by
  have hread := readIpv4Addr_showIpv4 a (noDigit_nil 10)
  rw [List.append_nil] at hread
  have hlen := length_showIpv4_le a
  unfold parseIpv4 parseWith
  rw [if_neg (by omega), hread]

/-! ## The groups of an IPv6 address -/

/-- Groups that follow another group. -/
def colonGroups (gs : List Nat) : List Char := gs.flatMap fun g => ':' :: Nat.toDigits 16 g

theorem showGroups_nil : (showGroups []).toList = [] := rfl

theorem showGroups_cons (g : Nat) (gs : List Nat) :
    (showGroups (g :: gs)).toList = Nat.toDigits 16 g ++ colonGroups gs := by
  induction gs generalizing g with
  | nil => simp [showGroups, colonGroups]
  | cons g' gs ih =>
    have hih := ih g'
    simp only [showGroups, String.toList_intercalate, List.map_cons] at hih ⊢
    rw [List.intercalate_cons_cons, hih]
    simp [colonGroups]

/-- What can follow printed groups: nothing that continues the last group, makes a dotted
address of it, or is a further group. -/
structure Stops (rest : List Char) : Prop where
  noDigit : NoDigit 16 rest
  noDot : rest.head? ≠ some '.'
  noGroup : ∀ tail, rest = ':' :: tail → NoDigit 16 tail ∧ tail.head? ≠ some '.'

theorem noDigit_ten_of_sixteen {rest : List Char} (h : NoDigit 16 rest) : NoDigit 10 rest := by
  intro c hc
  have h16 := h c hc
  unfold toDigit at h16 ⊢
  simp only [Option.filter_eq_none_iff] at h16 ⊢
  intro v hv
  have := h16 v hv
  simp only [decide_eq_true_eq] at this ⊢
  omega

/-- Text whose first number is not followed by a dot is no dotted address. -/
theorem readIpv4Addr_eq_none {cs : List Char}
    (h : (cs.dropWhile fun c => (toDigit 10 c).isSome).head? ≠ some '.') :
    readIpv4Addr cs = none := by
  unfold readIpv4Addr
  cases hfirst : readOctet 0 cs with
  | none => rfl
  | some p =>
    obtain ⟨n, rest⟩ := p
    have hrest : rest = cs.dropWhile fun c => (toDigit 10 c).isSome := by
      unfold readOctet readSeparator readNumber at hfirst
      simp only [Nat.lt_irrefl, if_false] at hfirst
      split at hfirst
      · cases hfirst
      · split at hfirst
        · cases hfirst
        · split at hfirst
          · cases hfirst
          · split at hfirst
            · cases hfirst
              rfl
            · cases hfirst
    have hsecond : readOctet 1 rest = none := by
      rw [← hrest] at h
      unfold readOctet readSeparator
      cases rest with
      | nil => rfl
      | cons c rest =>
        have hc : c ≠ '.' := fun hc => h (by rw [hc]; rfl)
        simp [readGivenChar, hc]
    simp [bind, hsecond]

theorem dot_not_digit : ∀ c, (toDigit 16 c).isSome = true → c ≠ '.' := by
  rintro c hc rfl
  revert hc
  decide

/-- A printed group is not the first octet of a dotted address. -/
theorem readIpv4Addr_group {g : Nat} {rest : List Char} (hrest : NoDigit 16 rest)
    (hdot : rest.head? ≠ some '.') : readIpv4Addr (Nat.toDigits 16 g ++ rest) = none := by
  apply readIpv4Addr_eq_none
  have hdigits : ∀ c ∈ Nat.toDigits 16 g, c ≠ '.' := fun c hc =>
    dot_not_digit c (isSome_toDigit_of_mem (by omega) (by omega) hc)
  generalize Nat.toDigits 16 g = ds at hdigits
  induction ds with
  | nil =>
    rw [List.nil_append, (noDigit_ten_of_sixteen hrest).takeWhile.2]
    exact hdot
  | cons c ds ih =>
    rw [List.cons_append, List.dropWhile_cons]
    split
    · exact ih fun d hd => hdigits d (List.mem_cons_of_mem _ hd)
    · intro hc
      exact hdigits c List.mem_cons_self (Option.some.inj hc)

theorem readNumber_stops {rest : List Char} (hrest : NoDigit 16 rest) :
    readNumber 16 4 true 65536 rest = none := by
  unfold readNumber
  simp [hrest.takeWhile.1]

theorem readIpv4Addr_stops {rest : List Char} (hrest : NoDigit 16 rest)
    (hdot : rest.head? ≠ some '.') : readIpv4Addr rest = none := by
  apply readIpv4Addr_eq_none
  rw [(noDigit_ten_of_sixteen hrest).takeWhile.2]
  exact hdot

theorem noDigit_colon (rest : List Char) : NoDigit 16 (':' :: rest) := by
  intro c hc
  cases hc
  decide

/-- What follows a group among printed groups does not continue it. -/
theorem colonGroups_append_noDigit {rest : List Char} (hrest : NoDigit 16 rest)
    (hdot : rest.head? ≠ some '.') (gs : List Nat) :
    NoDigit 16 (colonGroups gs ++ rest) ∧ (colonGroups gs ++ rest).head? ≠ some '.' := by
  cases gs with
  | nil => exact ⟨hrest, hdot⟩
  | cons g gs => exact ⟨noDigit_colon _, by simp [colonGroups]⟩

/-- No group is read where the groups stop. -/
theorem readGroups_stops {limit n : Nat} {rest : List Char} (hrest : Stops rest) :
    readGroups limit n rest = ([], false, rest) := by
  have hsep : ∀ {α : Type} (i : Nat) (inner : List Char → Option (α × List Char)),
      (∀ cs, NoDigit 16 cs → cs.head? ≠ some '.' → inner cs = none) →
      readSeparator ':' i inner rest = none := by
    intro α i inner hinner
    unfold readSeparator
    split
    · cases hcs : rest with
      | nil => rfl
      | cons c tail =>
        rw [readGivenChar]
        split
        · rename_i hc
          obtain ⟨hdigit, hdot⟩ := hrest.noGroup tail (by rw [hcs, hc])
          exact hinner tail hdigit hdot
        · rfl
    · exact hinner rest hrest.noDigit hrest.noDot
  cases n with
  | zero => rfl
  | succ n =>
    rw [readGroups]
    simp only [hsep _ readIpv4Addr fun cs h h' => readIpv4Addr_stops h h',
      hsep _ (readNumber 16 4 true 65536) fun cs h _ => readNumber_stops h, ite_self]

/-- A group is read off, and the reader goes on behind it. -/
theorem readGroups_group {limit n i g : Nat} {cs rest : List Char} (hi : i = limit - (n + 1))
    (hcs : cs = if 0 < i then ':' :: (Nat.toDigits 16 g ++ rest) else Nat.toDigits 16 g ++ rest)
    (hg : g < 65536) (hdigit : NoDigit 16 rest) (hdot : rest.head? ≠ some '.') :
    readGroups limit (n + 1) cs =
      (g :: (readGroups limit n rest).1, (readGroups limit n rest).2.1,
        (readGroups limit n rest).2.2) := by
  have hlen : (Nat.toDigits 16 g).length ≤ 4 :=
    (Nat.length_toDigits_le_iff (by omega) (by omega)).mpr (by omega)
  have hsep : ∀ {α : Type} (inner : List Char → Option (α × List Char)),
      readSeparator ':' i inner cs = inner (Nat.toDigits 16 g ++ rest) := by
    intro α inner
    unfold readSeparator
    rw [hcs]
    split
    · simp [readGivenChar]
    · rfl
  rw [readGroups]
  simp only [← hi, hsep, readIpv4Addr_group hdigit hdot, ite_self,
    readNumber_toDigits (show 2 ≤ 16 by omega) (Nat.le_refl 16) hlen hg hdigit]

/-- The groups after the first are read back. -/
theorem readGroups_colonGroups {limit n : Nat} {gs : List Nat} {rest : List Char}
    (hlimit : n < limit) (hlen : gs.length ≤ n) (hgs : ∀ g ∈ gs, g < 65536) (hrest : Stops rest) :
    readGroups limit n (colonGroups gs ++ rest) = (gs, false, rest) := by
  induction gs generalizing n with
  | nil => exact readGroups_stops hrest
  | cons g gs ih =>
    have hn : n ≠ 0 := by
      rw [List.length_cons] at hlen
      omega
    obtain ⟨m, rfl⟩ := Nat.exists_eq_succ_of_ne_zero hn
    obtain ⟨hdigit, hdot⟩ := colonGroups_append_noDigit hrest.noDigit hrest.noDot gs
    have hi : 0 < limit - (m + 1) := by omega
    have hih := ih (n := m) (by omega) (by rw [List.length_cons] at hlen; omega)
      fun g' hg' => hgs g' (List.mem_cons_of_mem _ hg')
    rw [readGroups_group rfl (by rw [if_pos hi]; simp [colonGroups]) (hgs g List.mem_cons_self)
      hdigit hdot, hih]

/-- **Printed groups read back.** -/
theorem readGroups_showGroups {limit : Nat} {gs : List Nat} {rest : List Char}
    (hlen : gs.length ≤ limit) (hgs : ∀ g ∈ gs, g < 65536) (hrest : Stops rest) :
    readGroups limit limit ((showGroups gs).toList ++ rest) = (gs, false, rest) := by
  cases gs with
  | nil => exact readGroups_stops hrest
  | cons g gs =>
    obtain ⟨m, rfl⟩ := Nat.exists_eq_succ_of_ne_zero
      (show limit ≠ 0 by rw [List.length_cons] at hlen; omega)
    obtain ⟨hdigit, hdot⟩ := colonGroups_append_noDigit hrest.noDigit hrest.noDot gs
    rw [showGroups_cons, readGroups_group rfl (by rw [if_neg (by omega), List.append_assoc])
      (hgs g List.mem_cons_self) hdigit hdot,
      readGroups_colonGroups (Nat.lt_succ_self m) (by rw [List.length_cons] at hlen; omega)
        (fun g' hg' => hgs g' (List.mem_cons_of_mem _ hg')) hrest]

/-! ## The elided run -/

/-- `z` is a run of zeros of the list. -/
def IsZeroRun (gs : List Nat) (z : Nat × Nat) : Prop :=
  ∃ pre post, gs = pre ++ List.replicate z.2 0 ++ post ∧ (0 < z.2 → pre.length = z.1)

/-- `z` is a run of zeros at the end of the list. -/
def IsZeroTail (gs : List Nat) (z : Nat × Nat) : Prop :=
  ∃ pre, gs = pre ++ List.replicate z.2 0 ∧ (0 < z.2 → pre.length = z.1)

/-- One step of the scan for the longest run. -/
def zeroStep : (Nat × Nat) × (Nat × Nat) → Nat × Nat → (Nat × Nat) × (Nat × Nat) :=
  fun (best, cur) (g, i) =>
    if g = 0 then
      let cur' : Nat × Nat := (if cur.2 = 0 then i else cur.1, cur.2 + 1)
      (if best.2 < cur'.2 then cur' else best, cur')
    else (best, (0, 0))

theorem IsZeroRun.snoc {gs : List Nat} {z : Nat × Nat} (h : IsZeroRun gs z) (g : Nat) :
    IsZeroRun (gs ++ [g]) z := by
  obtain ⟨pre, post, rfl, hlen⟩ := h
  exact ⟨pre, post ++ [g], by simp, hlen⟩

theorem IsZeroTail.isZeroRun {gs : List Nat} {z : Nat × Nat} (h : IsZeroTail gs z) :
    IsZeroRun gs z := by
  obtain ⟨pre, rfl, hlen⟩ := h
  exact ⟨pre, [], by simp, hlen⟩

theorem IsZeroTail.zero {gs : List Nat} {z : Nat × Nat} (h : IsZeroTail gs z) :
    IsZeroTail (gs ++ [0]) (if z.2 = 0 then gs.length else z.1, z.2 + 1) := by
  obtain ⟨pre, hgs, hlen⟩ := h
  refine ⟨pre, ?_, fun _ => ?_⟩
  · rw [hgs, List.replicate_succ', List.append_assoc]
  · split
    · rename_i hz
      rw [hgs, hz]
      simp
    · exact hlen (by omega)

/-- The scan keeps a run, and the run that ends where it stands. -/
theorem zeroStep_spec {done : List Nat} {s : (Nat × Nat) × (Nat × Nat)} {g : Nat}
    (hbest : IsZeroRun done s.1) (hcur : IsZeroTail done s.2) :
    IsZeroRun (done ++ [g]) (zeroStep s (g, done.length)).1 ∧
      IsZeroTail (done ++ [g]) (zeroStep s (g, done.length)).2 := by
  unfold zeroStep
  by_cases hg : g = 0
  · subst hg
    simp only [if_true]
    have htail := hcur.zero
    refine ⟨?_, htail⟩
    split
    · exact htail.isZeroRun
    · exact hbest.snoc 0
  · simp only [if_neg hg]
    exact ⟨hbest.snoc g, ⟨done ++ [g], by simp, by simp⟩⟩

theorem foldl_zeroStep {done gs : List Nat} {s : (Nat × Nat) × (Nat × Nat)}
    (hbest : IsZeroRun done s.1) (hcur : IsZeroTail done s.2) :
    IsZeroRun (done ++ gs) ((gs.zipIdx done.length).foldl zeroStep s).1 := by
  induction gs generalizing done s with
  | nil => simpa using hbest
  | cons g gs ih =>
    obtain ⟨hbest', hcur'⟩ := zeroStep_spec (g := g) hbest hcur
    rw [List.zipIdx_cons, List.foldl_cons]
    have hih := ih hbest' hcur'
    simpa using hih

/-- **The elided run is a run of zeros.** -/
theorem longestZeros_isZeroRun (gs : List Nat) : IsZeroRun gs (longestZeros gs) :=
  @foldl_zeroStep [] gs ((0, 0), (0, 0)) ⟨[], [], rfl, by simp⟩ ⟨[], rfl, by simp⟩

/-- The groups around the elided run. -/
theorem groups_around_zeros {gs : List Nat} {z : Nat × Nat} (h : IsZeroRun gs z) (hz : 0 < z.2) :
    z.1 + z.2 ≤ gs.length ∧
      gs.take z.1 ++ List.replicate z.2 0 ++ gs.drop (z.1 + z.2) = gs := by
  obtain ⟨pre, post, rfl, hlen⟩ := h
  rw [← hlen hz]
  constructor
  · simp
  · simp [List.append_assoc, List.drop_append]

/-! ## IPv6 -/

theorem segments_eq (a : BitVec 128) :
    segments a = [a.toNat >>> 112 % 65536, a.toNat >>> 96 % 65536, a.toNat >>> 80 % 65536,
      a.toNat >>> 64 % 65536, a.toNat >>> 48 % 65536, a.toNat >>> 32 % 65536,
      a.toNat >>> 16 % 65536, a.toNat >>> 0 % 65536] := rfl

theorem segments_lt (a : BitVec 128) : ∀ g ∈ segments a, g < 65536 := by
  intro g hg
  obtain ⟨i, -, rfl⟩ := List.mem_map.mp hg
  exact Nat.mod_lt _ (by omega)

/-- A group below the groups before it. -/
theorem shiftRight_group (n k : Nat) :
    (n >>> (k + 16)) * 65536 + n >>> k % 65536 = n >>> k := by
  rw [Nat.shiftRight_add, Nat.shiftRight_eq_div_pow _ 16]
  omega

/-- The groups give the address back. -/
theorem ofGroups_segments (a : BitVec 128) : ofGroups (segments a) = a := by
  have hlt := a.isLt
  have hfirst : a.toNat >>> 112 % 65536 = a.toNat >>> 112 := by
    rw [Nat.shiftRight_eq_div_pow]
    omega
  apply BitVec.eq_of_toNat_eq
  rw [ofGroups, BitVec.toNat_ofNat, segments_eq]
  simp only [List.foldl_cons, List.foldl_nil]
  rw [Nat.zero_mul, Nat.zero_add, hfirst, shiftRight_group _ 96, shiftRight_group _ 80,
    shiftRight_group _ 64, shiftRight_group _ 48, shiftRight_group _ 32, shiftRight_group _ 16,
    shiftRight_group _ 0, Nat.shiftRight_zero, Nat.mod_eq_of_lt hlt]

/-- What can follow a printed IPv6 address. -/
def EndsAddr (rest : List Char) : Prop :=
  ∀ c, rest.head? = some c → toDigit 16 c = none ∧ c ≠ '.' ∧ c ≠ ':'

theorem EndsAddr.stops {rest : List Char} (h : EndsAddr rest) : Stops rest where
  noDigit c hc := (h c hc).1
  noDot hc := (h _ hc).2.1 rfl
  noGroup tail htail := absurd rfl (h ':' (by rw [htail]; rfl)).2.2

theorem stops_elision (rest : List Char) : Stops (':' :: ':' :: rest) where
  noDigit := noDigit_colon _
  noDot := by simp
  noGroup tail htail := by
    cases htail
    exact ⟨noDigit_colon _, by simp⟩

/-- The dotted address of the mapped form fills the last two groups. -/
theorem readGroups_mapped (v : BitVec 32) {rest : List Char} (hrest : NoDigit 10 rest) :
    readGroups 7 7 ("ffff:".toList ++ ((showIpv4 v).toList ++ rest)) =
      ([0xffff, v.toNat / 65536, v.toNat % 65536], true, rest) := by
  have hdotted : readGroups 7 6 (':' :: ((showIpv4 v).toList ++ rest)) =
      ([v.toNat / 65536, v.toNat % 65536], true, rest) := by
    rw [readGroups]
    simp [readSeparator, readGivenChar, readIpv4Addr_showIpv4 v hrest]
  have htext : "ffff:".toList ++ ((showIpv4 v).toList ++ rest) =
      Nat.toDigits 16 0xffff ++ ':' :: ((showIpv4 v).toList ++ rest) := by
    have hffff : "ffff:".toList = Nat.toDigits 16 0xffff ++ [':'] := by decide
    rw [hffff]
    simp
  rw [readGroups_group rfl htext (by omega) (noDigit_colon _) (by simp), hdotted]

theorem ofGroups_mapped {a : BitVec 128} (ha : a.toNat >>> 32 = 0xffff) :
    ofGroups (List.replicate 5 0 ++ [0xffff, (BitVec.ofNat 32 a.toNat).toNat / 65536,
      (BitVec.ofNat 32 a.toNat).toNat % 65536]) = a := by
  have hlt := a.isLt
  rw [Nat.shiftRight_eq_div_pow] at ha
  apply BitVec.eq_of_toNat_eq
  rw [ofGroups, BitVec.toNat_ofNat, BitVec.toNat_ofNat]
  simp only [List.replicate, List.cons_append, List.nil_append, List.foldl_cons, List.foldl_nil]
  omega

/-- The reader on a compressed address: the groups before, an elision, the groups after. -/
theorem readIpv6Addr_compressed {before tail : List Nat} {dotted : Bool} {cs rest : List Char}
    (hlen : before.length < 8) (hbefore : ∀ g ∈ before, g < 65536)
    (htail : readGroups (8 - (before.length + 1)) (8 - (before.length + 1)) cs =
      (tail, dotted, rest)) :
    readIpv6Addr ((showGroups before).toList ++ ':' :: ':' :: cs) =
      some (ofGroups (before ++ List.replicate (8 - before.length - tail.length) 0 ++ tail),
        rest) := by
  have hhead : readGroups 8 8 ((showGroups before).toList ++ ':' :: ':' :: cs) =
      (before, false, ':' :: ':' :: cs) :=
    readGroups_showGroups (by omega) hbefore (stops_elision cs)
  unfold readIpv6Addr
  simp only [hhead]
  rw [if_neg (by omega), if_neg (by simp)]
  simp only [readGivenChar, if_true, bind, Option.bind_some, htail]
  rfl

/-- **A printed IPv6 address reads back.** -/
theorem readIpv6Addr_showIpv6 (a : BitVec 128) {rest : List Char} (hrest : EndsAddr rest) :
    readIpv6Addr ((showIpv6 a).toList ++ rest) = some (a, rest) := by
  unfold showIpv6
  dsimp only
  split
  · -- the mapped form
    rename_i hmapped
    have htext : ("::ffff:" ++ showIpv4 (BitVec.ofNat 32 a.toNat)).toList ++ rest =
        (showGroups []).toList ++ ':' :: ':' :: ("ffff:".toList ++
          ((showIpv4 (BitVec.ofNat 32 a.toNat)).toList ++ rest)) := by
      simp [String.toList_append, showGroups_nil]
    have hread := @readIpv6Addr_compressed [] _ _ _ _ (by simp) (by simp)
      (readGroups_mapped (BitVec.ofNat 32 a.toNat) (noDigit_ten_of_sixteen hrest.stops.noDigit))
    rw [htext, hread]
    exact congrArg (fun v => some (v, rest)) (ofGroups_mapped hmapped)
  · split
    · rename_i hlong
      obtain ⟨hle, hgroups⟩ := groups_around_zeros (longestZeros_isZeroRun (segments a))
        (Nat.lt_of_succ_lt hlong)
      generalize longestZeros (segments a) = z at hlong hle hgroups
      have hlen : (segments a).length = 8 := rfl
      rw [hlen] at hle
      have htake : ((segments a).take z.1).length = z.1 := by
        rw [List.length_take]
        omega
      have hdrop : ((segments a).drop (z.1 + z.2)).length = 8 - (z.1 + z.2) := by
        rw [List.length_drop, hlen]
      have htext : (showGroups ((segments a).take z.1) ++ "::" ++
          showGroups ((segments a).drop (z.1 + z.2))).toList ++ rest =
          (showGroups ((segments a).take z.1)).toList ++ ':' :: ':' ::
            ((showGroups ((segments a).drop (z.1 + z.2))).toList ++ rest) := by
        simp [String.toList_append]
      have htail := @readGroups_showGroups (8 - (((segments a).take z.1).length + 1))
        ((segments a).drop (z.1 + z.2)) rest (by omega)
        (fun g hg => segments_lt a g (List.mem_of_mem_drop hg)) hrest.stops
      rw [htext, readIpv6Addr_compressed (by omega)
        (fun g hg => segments_lt a g (List.mem_of_mem_take hg)) htail]
      have hzeros : 8 - ((segments a).take z.1).length -
          ((segments a).drop (z.1 + z.2)).length = z.2 := by omega
      rw [hzeros, hgroups, ofGroups_segments]
    · have hlen : (segments a).length = 8 := rfl
      have hread : readGroups 8 8 ((showGroups (segments a)).toList ++ rest) =
          (segments a, false, rest) :=
        readGroups_showGroups (Nat.le_of_eq hlen) (segments_lt a) hrest.stops
      unfold readIpv6Addr
      simp only [hread]
      rw [if_pos hlen, ofGroups_segments]

theorem parseIpv6_showIpv6 (a : BitVec 128) : parseIpv6 (showIpv6 a) = some a := by
  have hends : EndsAddr [] := by
    intro c hc
    cases hc
  have hread := readIpv6Addr_showIpv6 a hends
  rw [List.append_nil] at hread
  unfold parseIpv6 parseWith
  rw [hread]

/-! ## The characters of a printed address -/

/-- The characters of addresses. -/
def isAddrChar (c : Char) : Bool := (toDigit 16 c).isSome || c == '.' || c == ':'

theorem isAddrChar_of_digit {r : Nat} (hr : r ≤ 16) {c : Char} (hc : (toDigit r c).isSome = true) :
    isAddrChar c = true := by
  have hhex : (toDigit 16 c).isSome = true := by
    unfold toDigit at hc ⊢
    obtain ⟨v, hv⟩ := Option.isSome_iff_exists.mp hc
    rw [Option.filter_eq_some_iff] at hv
    obtain ⟨hval, hlt⟩ := hv
    rw [decide_eq_true_eq] at hlt
    rw [hval, Option.filter_some, if_pos (by simp; omega)]
    rfl
  simp [isAddrChar, hhex]

theorem isAddrChar_toDigits {r n : Nat} (h2 : 2 ≤ r) (hr : r ≤ 16) {c : Char}
    (hc : c ∈ Nat.toDigits r n) : isAddrChar c = true :=
  isAddrChar_of_digit hr (isSome_toDigit_of_mem h2 hr hc)

theorem isAddrChar_showIpv4 {a : BitVec 32} {c : Char} (hc : c ∈ (showIpv4 a).toList) :
    isAddrChar c = true := by
  rw [showIpv4_toList] at hc
  simp only [List.mem_append, List.mem_cons] at hc
  rcases hc with hc | rfl | hc | rfl | hc | rfl | hc
  · exact isAddrChar_toDigits (by omega) (by omega) hc
  · rfl
  · exact isAddrChar_toDigits (by omega) (by omega) hc
  · rfl
  · exact isAddrChar_toDigits (by omega) (by omega) hc
  · rfl
  · exact isAddrChar_toDigits (by omega) (by omega) hc

theorem isAddrChar_showGroups {gs : List Nat} {c : Char} (hc : c ∈ (showGroups gs).toList) :
    isAddrChar c = true := by
  cases gs with
  | nil => cases hc
  | cons g gs =>
    rw [showGroups_cons] at hc
    simp only [List.mem_append, colonGroups, List.mem_flatMap, List.mem_cons] at hc
    rcases hc with hc | ⟨g', -, rfl | hc⟩
    · exact isAddrChar_toDigits (by omega) (by omega) hc
    · rfl
    · exact isAddrChar_toDigits (by omega) (by omega) hc

theorem isAddrChar_showIpv6 {a : BitVec 128} {c : Char} (hc : c ∈ (showIpv6 a).toList) :
    isAddrChar c = true := by
  unfold showIpv6 at hc
  dsimp only at hc
  have hcolons : ∀ c ∈ "::".toList, isAddrChar c = true := List.all_eq_true.mp (by decide)
  have hmapped : ∀ c ∈ "::ffff:".toList, isAddrChar c = true := List.all_eq_true.mp (by decide)
  split at hc
  · rw [String.toList_append, List.mem_append] at hc
    rcases hc with hc | hc
    · exact hmapped c hc
    · exact isAddrChar_showIpv4 hc
  · split at hc
    · rw [String.toList_append, String.toList_append, List.mem_append, List.mem_append] at hc
      rcases hc with (hc | hc) | hc
      · exact isAddrChar_showGroups hc
      · exact hcolons c hc
      · exact isAddrChar_showGroups hc
    · exact isAddrChar_showGroups hc

/-- A printed number is read by `u32::from_str`. -/
theorem parseU32_repr {n : Nat} (hn : n < UInt32.size) : parseU32 n.repr = some n := by
  have hdigits : ∀ c ∈ Nat.toDigits 10 n, (toDigit 10 c).isSome = true :=
    fun c hc => isSome_toDigit_of_mem (by omega) (by omega) hc
  have hplus : ∀ rest, Nat.toDigits 10 n ≠ '+' :: rest := by
    intro rest hcs
    have hc := hdigits '+' (by rw [hcs]; exact List.mem_cons_self)
    revert hc
    decide
  have hvalue : digitsValue 10 (Nat.toDigits 10 n) = n := digitsValue_toDigits (by omega) (by omega)
  unfold parseU32
  rw [Nat.toList_repr]
  extract_lets ds
  have hds : ds = Nat.toDigits 10 n := by
    unfold ds
    split
    · rename_i hcs
      exact absurd hcs (hplus _)
    · rfl
  have hds_value : digitsValue 10 ds = n := by rw [hds, hvalue]
  have hds_digits : ds.all (fun c => (toDigit 10 c).isSome) = true := by
    rw [hds]
    exact List.all_eq_true.mpr hdigits
  rw [if_pos ⟨hds ▸ Nat.toDigits_ne_nil, hds_digits, hds_value.symm ▸ hn⟩, hds_value]

end StdAddr

/-! ## Addresses and networks -/

theorem IP4.fromStr_toString (ip : IP4) : IP4.fromStr ip.toString = .ok ip := by
  unfold IP4.fromStr IP4.toString
  rw [StdAddr.parseIpv4_showIpv4]

theorem IP6.fromStr_toString (ip : IP6) : IP6.fromStr ip.toString = .ok ip := by
  unfold IP6.fromStr IP6.toString
  rw [StdAddr.parseIpv6_showIpv6]

/-- The first separator is the one that was put there. -/
theorem splitOnce_append {c : Char} {s t : String} (hs : c ∉ s.toList) :
    splitOnce c (s ++ String.ofList (c :: t.toList)) = some (s, t) := by
  have hpos : ∀ d ∈ s.toList, decide (d ≠ c) = true := by
    intro d hd
    rw [decide_eq_true_eq]
    rintro rfl
    exact hs hd
  unfold splitOnce
  rw [String.toList_append, String.toList_ofList, List.dropWhile_append_of_pos hpos,
    List.takeWhile_append_of_pos hpos]
  simp

theorem IP4Net.toString_eq (n : IP4Net) :
    n.toString = n.ip.toString ++ String.ofList ('/' :: n.prefixLen.repr.toList) := by
  apply String.toList_inj.mp
  have hnet : n.toString = n.ip.toString ++ "/" ++ n.prefixLen.repr := rfl
  simp [hnet, String.toList_append]

theorem IP6Net.toString_eq (n : IP6Net) :
    n.toString = n.ip.toString ++ String.ofList ('/' :: n.prefixLen.repr.toList) := by
  apply String.toList_inj.mp
  have hnet : n.toString = n.ip.toString ++ "/" ++ n.prefixLen.repr := rfl
  simp [hnet, String.toList_append]

theorem isAddrChar_or_slash {len : Nat} {c : Char} (hc : c ∈ '/' :: len.repr.toList) :
    StdAddr.isAddrChar c = true ∨ c = '/' := by
  rcases List.mem_cons.mp hc with hc | hc
  · exact Or.inr hc
  · rw [Nat.toList_repr] at hc
    exact Or.inl (StdAddr.isAddrChar_toDigits (by omega) (by omega) hc)

/-- The characters of a network text. -/
theorem IP4Net.mem_toString {n : IP4Net} {c : Char} (hc : c ∈ n.toString.toList) :
    StdAddr.isAddrChar c = true ∨ c = '/' := by
  rw [IP4Net.toString_eq, String.toList_append, String.toList_ofList, List.mem_append] at hc
  rcases hc with hc | hc
  · exact Or.inl (StdAddr.isAddrChar_showIpv4 hc)
  · exact isAddrChar_or_slash hc

theorem IP6Net.mem_toString {n : IP6Net} {c : Char} (hc : c ∈ n.toString.toList) :
    StdAddr.isAddrChar c = true ∨ c = '/' := by
  rw [IP6Net.toString_eq, String.toList_append, String.toList_ofList, List.mem_append] at hc
  rcases hc with hc | hc
  · exact Or.inl (StdAddr.isAddrChar_showIpv6 hc)
  · exact isAddrChar_or_slash hc

theorem IP4.toString_inj {a b : IP4} : a.toString = b.toString ↔ a = b := by
  refine ⟨fun h => ?_, fun h => h ▸ rfl⟩
  have hread := IP4.fromStr_toString a
  rw [h, IP4.fromStr_toString] at hread
  exact (Except.ok.inj hread).symm

theorem IP4Net.toString_inj {m n : IP4Net} : m.toString = n.toString ↔ m = n := by
  refine ⟨fun h => ?_, fun h => h ▸ rfl⟩
  have hslash : ∀ ip : IP4, '/' ∉ ip.toString.toList := fun ip hmem =>
    absurd (StdAddr.isAddrChar_showIpv4 hmem) (by decide)
  have hsplit := congrArg (splitOnce '/') h
  rw [IP4Net.toString_eq, IP4Net.toString_eq, splitOnce_append (hslash m.ip),
    splitOnce_append (hslash n.ip), Option.some.injEq, Prod.mk.injEq, IP4.toString_inj] at hsplit
  have hvalue : ∀ k : Nat, StdAddr.digitsValue 10 k.repr.toList = k := by
    intro k
    rw [Nat.toList_repr, StdAddr.digitsValue_toDigits (by omega) (by omega)]
  have hlen : m.prefixLen = n.prefixLen := by
    rw [← hvalue m.prefixLen, hsplit.2, hvalue]
  exact IP4Net.ext hsplit.1 hlen

/-- **A printed network reads back**, with its host bits cleared. -/
theorem IP4Net.fromStr_toString {n : IP4Net} (hn : n.prefixLen ≤ 32) :
    IP4Net.fromStr n.toString = .ok n.network := by
  have hslash : '/' ∉ n.ip.toString.toList := fun h =>
    absurd (StdAddr.isAddrChar_showIpv4 h) (by decide)
  have hsize : n.prefixLen < UInt32.size := Nat.lt_of_le_of_lt hn (by decide)
  unfold IP4Net.fromStr
  rw [IP4Net.toString_eq, splitOnce_append hslash]
  simp only [StdAddr.parseU32_repr hsize]
  rw [if_neg (by omega), IP4.fromStr_toString]
  rfl

theorem IP6Net.fromStr_toString {n : IP6Net} (hn : n.prefixLen ≤ 128) :
    IP6Net.fromStr n.toString = .ok n.network := by
  have hslash : '/' ∉ n.ip.toString.toList := fun h =>
    absurd (StdAddr.isAddrChar_showIpv6 h) (by decide)
  have hsize : n.prefixLen < UInt32.size := Nat.lt_of_le_of_lt hn (by decide)
  unfold IP6Net.fromStr
  rw [IP6Net.toString_eq, splitOnce_append hslash]
  simp only [StdAddr.parseU32_repr hsize]
  rw [if_neg (by omega), IP6.fromStr_toString]
  rfl

end Flannel
