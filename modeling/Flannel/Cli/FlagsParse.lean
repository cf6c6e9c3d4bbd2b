import Mathlib.Data.List.Induction
import Flannel.Cli.Flags
import Flannel.Ip.Display
import Flannel.Lib.Results

/-!
# What the command line sets

Assignments to flags, each written in one of the forms that the parser knows, come back as the
assignments they are, whatever their values look like, and what stands behind them is left over.
The parser looks at an argument at a time, so the induction is on the assignments, and one of
them is one round of its loop, or one and the argument that the round takes with it.
-/

namespace Flannel

open KeyedList

namespace Flags

/-! ## Registering -/

/-- A call of one of the functions that register a flag. -/
inductive Registration where
  | bool (name : String) (default : Bool) (help : String)
  | int (name : String) (default : Int) (help : String)
  | string (name default help : String)
  | slice (name help : String)
  deriving DecidableEq, Repr

/-- The set with the flag. -/
def Registration.apply (fs : FlagSet) : Registration → Option FlagSet
  | bool name default help => fs.registerBool name default help
  | int name default help => fs.registerInt name default help
  | string name default help => fs.registerString name default help
  | slice name help => fs.registerSlice name help

/-- A set of flags that has just been registered. -/
def registered (name : String) (regs : List Registration) (tolerated : List String) :
    Option FlagSet :=
  (regs.foldlM Registration.apply (FlagSet.new name)).map (·.withToleratedUnknown tolerated)

/-! ## Assignments -/

/-- An assignment to a flag, as it can be written: `-n=v`, `-n v` or `-n`, with one dash or
two. -/
inductive Assignment where
  | inline (double : Bool) (name value : String)
  | separate (double : Bool) (name value : String)
  | bare (double : Bool) (name : String)
  deriving DecidableEq, Repr

namespace Assignment

/-- The flag that is set. -/
def name : Assignment → String
  | inline _ name _ => name
  | separate _ name _ => name
  | bare _ name => name

/-- The value that it is given. -/
def raw : Assignment → String
  | inline _ _ value => value
  | separate _ _ value => value
  | bare _ _ => "true"

/-- The dashes and the name. -/
def dashed (double : Bool) (name : String) : String :=
  (if double then "--" else "-") ++ name

/-- The arguments. -/
def render : Assignment → List String
  | inline double name value => [dashed double name ++ "=" ++ value]
  | separate double name value => [dashed double name, value]
  | bare double name => [dashed double name]

/-- The form is one for the kind of the flag. -/
def Admits : Assignment → Kind → Prop
  | inline _ _ _, _ => True
  | separate _ _ _, kind => kind ≠ .bool
  | bare _ _, kind => kind = .bool

/-- The flag is registered, and the form is one for its kind. -/
def Admissible (fs : FlagSet) (a : Assignment) : Prop :=
  ∃ f ∈ fs.flags, f.name = a.name ∧ a.Admits f.kind

end Assignment

/-- A value that a flag of the given kind can have. -/
def ValidFor : Kind → String → Prop
  | .bool, raw => ∃ b, parseBool raw = .ok b
  | .int, raw => ∃ n, parseInt raw = .ok n
  | .str, _ => True
  | .slice, _ => True

/-- The value is one for the kind of the flag. -/
def Assignment.Valid (fs : FlagSet) (a : Assignment) : Prop :=
  ∀ f ∈ fs.flags, f.name = a.name → ValidFor f.kind a.raw

/-- What stands behind the assignments: nothing, `--` with anything behind it, or an argument
that is no flag with anything behind it. -/
inductive Tail where
  | nothing
  | terminated (rest : List String)
  | positional (first : String) (rest : List String)
  deriving DecidableEq, Repr

/-- The arguments of a tail. -/
def Tail.args : Tail → List String
  | nothing => []
  | terminated rest => "--" :: rest
  | positional first rest => first :: rest

/-- The arguments that are left over. -/
def Tail.remaining : Tail → List String
  | nothing => []
  | terminated rest => rest
  | positional first rest => first :: rest

/-- An argument that is no flag is empty, a dash, or does not start with one. -/
def Tail.WellFormed : Tail → Prop
  | positional first _ => first = "" ∨ first = "-" ∨ first.toList.head? ≠ some '-'
  | _ => True

/-- A name that a flag can be called by. -/
def GoodName (name : String) : Prop :=
  name ≠ "" ∧ '=' ∉ name.toList ∧ name.toList.head? ≠ some '-'

/-- A flag after an assignment. -/
def assign (f : Flag) (a : Assignment) : Flag :=
  if f.name = a.name then
    match setFlagValue f a.raw with
    | .ok f' => { f' with setByCli := true }
    | .error _ => f
  else f

/-! ## Arguments -/

section

variable {name value arg : String} {body : List Char} {c : Char} {cs : List Char}

theorem splitOnce_eq_none {sep : Char} {s : String} (hs : sep ∉ s.toList) :
    splitOnce sep s = none := by
  have hpos : ∀ d ∈ s.toList, decide (d ≠ sep) = true := by
    intro d hd
    rw [decide_eq_true_eq]
    rintro rfl
    exact hs hd
  have hdrop : s.toList.dropWhile (· ≠ sep) = [] := by
    have h : (s.toList ++ []).dropWhile (· ≠ sep) = [].dropWhile (· ≠ sep) :=
      List.dropWhile_append_of_pos hpos
    rwa [List.append_nil, List.dropWhile_nil] at h
  rw [splitOnce, hdrop]

theorem GoodName.exists_cons (hname : GoodName name) :
    ∃ c cs, name.toList = c :: cs ∧ c ≠ '-' ∧ c ≠ '=' := by
  obtain ⟨hne, hequals, hdash⟩ := hname
  obtain ⟨c, cs, hcs⟩ : ∃ c cs, name.toList = c :: cs :=
    List.exists_cons_of_ne_nil (by simpa using hne)
  rw [hcs] at hequals hdash
  refine ⟨c, cs, hcs, ?_, ?_⟩
  · rintro rfl
    exact hdash rfl
  · rintro rfl
    exact hequals (List.mem_cons_self ..)

/-- The dashes of a flag are dropped. -/
theorem readArg_dashed (double : Bool) (hname : GoodName name) (suffix : String) :
    FlagSet.readArg (Assignment.dashed double name ++ suffix) =
      FlagSet.readBody (name ++ suffix).toList := by
  obtain ⟨c, cs, hcs, hdash, -⟩ := hname.exists_cons
  cases double with
  | true => simp [FlagSet.readArg, Assignment.dashed, hcs]
  | false => simp [FlagSet.readArg, Assignment.dashed, hcs, hdash]

theorem readBody_append (hname : GoodName name) (suffix : String) :
    ¬ ((name ++ suffix).toList = [] ∨ (name ++ suffix).toList.head? = some '-' ∨
      (name ++ suffix).toList.head? = some '=') := by
  obtain ⟨c, cs, hcs, hdash, hequals⟩ := hname.exists_cons
  simp [hcs, hdash, hequals]

theorem readArg_bare (double : Bool) (hname : GoodName name) :
    FlagSet.readArg (Assignment.dashed double name) = .flag name "" false := by
  have harg := readArg_dashed double hname ""
  have hbody := readBody_append hname ""
  simp only [String.append_empty] at harg hbody
  rw [harg, FlagSet.readBody, if_neg hbody, String.ofList_toList, splitOnce_eq_none hname.2.1]

theorem readArg_inline (double : Bool) (hname : GoodName name) (value : String) :
    FlagSet.readArg (Assignment.dashed double name ++ "=" ++ value) = .flag name value true := by
  have hequals : "=" ++ value = String.ofList ('=' :: value.toList) := by
    apply String.toList_inj.mp
    simp
  rw [String.append_assoc, readArg_dashed double hname, FlagSet.readBody,
    if_neg (readBody_append hname _), String.ofList_toList, hequals, splitOnce_append hname.2.1]

theorem readArg_terminator : FlagSet.readArg "--" = .terminator := by decide

theorem readArg_positional (h : arg = "" ∨ arg = "-" ∨ arg.toList.head? ≠ some '-') :
    FlagSet.readArg arg = .positional := by
  rcases h with rfl | rfl | h
  · rfl
  · rfl
  · rw [FlagSet.readArg]
    split
    · next first c cs hcs =>
      rw [hcs] at h
      exact if_pos fun hfirst => h (congrArg some hfirst)
    · rfl

end

/-! ## Flags -/

section

variable {f f' : Flag} {raw : String} {a : Assignment}

/-- A flag takes the values that are ones for its kind. -/
theorem setFlagValue_ok_iff : (∃ f', setFlagValue f raw = .ok f') ↔ ValidFor f.kind raw := by
  rw [setFlagValue]
  cases f.kind with
  | bool => exact Results.exists_map_ok_iff
  | int => exact Results.exists_map_ok_iff
  | str => exact iff_of_true ⟨_, rfl⟩ trivial
  | slice =>
    refine iff_of_true ?_ trivial
    cases f.value with
    | slice items => exact ⟨_, rfl⟩
    | bool b => exact ⟨_, rfl⟩
    | int n => exact ⟨_, rfl⟩
    | str s => exact ⟨_, rfl⟩

/-- Nothing of a flag changes but its value. -/
theorem setFlagValue_frame (h : setFlagValue f raw = .ok f') :
    f' = { f with value := f'.value } := by
  obtain ⟨name, kind, help, value, default, setByCli, setByEnv⟩ := f
  cases kind with
  | bool =>
    obtain ⟨b, -, rfl⟩ := Results.map_ok_iff.mp h
    rfl
  | int =>
    obtain ⟨n, -, rfl⟩ := Results.map_ok_iff.mp h
    rfl
  | str =>
    cases h
    rfl
  | slice =>
    cases value with
    | slice items =>
      cases h
      rfl
    | bool b | int n | str s =>
      cases h
      rfl

theorem assign_of_ok (hname : f.name = a.name) (h : setFlagValue f a.raw = .ok f') :
    assign f a = { f' with setByCli := true } := by
  rw [assign, if_pos hname, h]

theorem assign_of_ne (hname : f.name ≠ a.name) : assign f a = f := if_neg hname

/-- Nothing of a flag changes but its value and its mark. -/
theorem assign_frame (f : Flag) (a : Assignment) :
    assign f a = { f with value := (assign f a).value, setByCli := (assign f a).setByCli } := by
  by_cases hname : f.name = a.name
  · cases h : setFlagValue f a.raw with
    | error reason => rw [assign, if_pos hname, h]
    | ok f' =>
      rw [assign_of_ok hname h]
      exact congrArg (fun g : Flag => { g with setByCli := true }) (setFlagValue_frame h)
  · rw [assign_of_ne hname]

@[simp] theorem assign_name (f : Flag) (a : Assignment) : (assign f a).name = f.name := by
  rw [assign_frame]

@[simp] theorem assign_kind (f : Flag) (a : Assignment) : (assign f a).kind = f.kind := by
  rw [assign_frame]

end

/-! ## One assignment -/

/-- A set of flags with names that they can be called by. -/
def Named (fs : FlagSet) : Prop :=
  Distinct Flag.name fs.flags ∧ ∀ f ∈ fs.flags, GoodName f.name

section

variable {fs : FlagSet} {f f' : Flag} {a : Assignment}

/-- The arguments of an assignment are read as one round of the parser does. -/
theorem render_cases (hname : GoodName a.name) {kind : Kind} (hadmits : a.Admits kind)
    (rest : List String) :
    ∃ arg rest' inline hasValue, a.render ++ rest = arg :: rest' ∧
      FlagSet.readArg arg = .flag a.name inline hasValue ∧
      FlagSet.rawValue kind inline hasValue rest' = some (a.raw, rest) := by
  cases a with
  | inline double name value =>
    refine ⟨_, rest, value, true, rfl, readArg_inline double hname value, ?_⟩
    cases kind with
    | bool => rfl
    | int | str | slice => rfl
  | separate double name value =>
    refine ⟨_, value :: rest, "", false, rfl, readArg_bare double hname, ?_⟩
    exact if_neg hadmits
  | bare double name =>
    refine ⟨_, rest, "", false, rfl, readArg_bare double hname, ?_⟩
    exact if_pos hadmits

theorem find_eq (hd : Distinct Flag.name fs.flags) (hf : f ∈ fs.flags) :
    ∃ pre post, fs.find f.name = some (pre, f, post) ∧ fs.flags = pre ++ f :: post := by
  cases hfind : fs.find f.name with
  | none =>
    have hno := firstMatch_eq_none.mp hfind f hf
    simp at hno
  | some r =>
    obtain ⟨pre, g, post⟩ := r
    obtain ⟨hsplit, hg, -⟩ := firstMatch_eq_some hfind
    have hmem : g ∈ fs.flags := by simp [hsplit]
    obtain rfl := hd.eq_of_key hmem hf (of_decide_eq_true hg)
    exact ⟨pre, post, rfl, hsplit⟩

theorem map_assign_middle {pre post : List Flag} (hd : Distinct Flag.name (pre ++ f :: post))
    (hname : f.name = a.name) :
    (pre ++ f :: post).map (assign · a) = pre ++ assign f a :: post := by
  obtain ⟨hother, -⟩ := distinct_middle.mp hd
  have hkeep : ∀ g ∈ pre ++ post, assign g a = g := by
    intro g hg
    refine assign_of_ne fun hne => hother ?_
    rw [hname, ← hne]
    exact List.mem_map_of_mem hg
  rw [List.map_append, List.map_cons,
    List.map_congr_left fun g hg => hkeep g (List.mem_append_left _ hg), List.map_id',
    List.map_congr_left fun g hg => hkeep g (List.mem_append_right _ hg), List.map_id']

section

variable {arg name inline raw : String} {hasValue : Bool} {pre post : List Flag}
  {rest rest' : List String}

/-- A round of the parser on an argument that names a flag. -/
theorem parse_flag (harg : FlagSet.readArg arg = .flag name inline hasValue)
    (hfind : fs.find name = some (pre, f, post))
    (hraw : FlagSet.rawValue f.kind inline hasValue rest = some (raw, rest')) :
    (∀ f', setFlagValue f raw = .ok f' → fs.parse (arg :: rest) =
      FlagSet.parse { fs with flags := pre ++ { f' with setByCli := true } :: post } rest') ∧
    ∀ reason, setFlagValue f raw = .error reason →
      fs.parse (arg :: rest) = (fs, .error (.badValue name raw reason)) := by
  rw [FlagSet.parse, harg]
  simp only [hfind]
  split
  · next hnone =>
    rw [hraw] at hnone
    cases hnone
  · next hsome =>
    rw [hraw] at hsome
    cases hsome
    constructor
    · intro f' hset
      simp only [hset]
    · intro reason hset
      simp only [hset]

end

/-- A round of the parser on an assignment. -/
theorem parse_render (hfs : Named fs) (hf : f ∈ fs.flags) (hname : f.name = a.name)
    (hadmits : a.Admits f.kind) (rest : List String) :
    (∀ f', setFlagValue f a.raw = .ok f' → fs.parse (a.render ++ rest) =
      FlagSet.parse { fs with flags := fs.flags.map (assign · a) } rest) ∧
    ∀ reason, setFlagValue f a.raw = .error reason →
      fs.parse (a.render ++ rest) = (fs, .error (.badValue a.name a.raw reason)) := by
  obtain ⟨arg, rest', inline, hasValue, hrender, harg, hraw⟩ :=
    render_cases (hname ▸ hfs.2 f hf) hadmits rest
  obtain ⟨pre, post, hfind, hsplit⟩ := find_eq hfs.1 hf
  rw [hname] at hfind
  rw [hrender]
  constructor
  · intro f' hset
    rw [(parse_flag harg hfind hraw).1 f' hset, hsplit, map_assign_middle (hsplit ▸ hfs.1) hname,
      assign_of_ok hname hset]
  · intro reason hset
    exact (parse_flag harg hfind hraw).2 reason hset

/-- What is behind the assignments is left over. -/
theorem parse_tail (fs : FlagSet) {tail : Tail} (htail : tail.WellFormed) :
    fs.parse tail.args = ({ fs with remaining := tail.remaining }, .ok ()) := by
  cases tail with
  | nothing => rw [Tail.args, FlagSet.parse, Tail.remaining]
  | terminated rest => rw [Tail.args, FlagSet.parse, readArg_terminator, Tail.remaining]
  | positional first rest =>
    rw [Tail.args, FlagSet.parse, readArg_positional htail, Tail.remaining]

/-! ## A list of assignments -/

theorem distinct_map {g : Flag → Flag} (hg : ∀ f, (g f).name = f.name) {flags : List Flag}
    (hd : Distinct Flag.name flags) : Distinct Flag.name (flags.map g) := by
  have hnames : (flags.map g).map Flag.name = flags.map Flag.name := by
    rw [List.map_map]
    exact List.map_congr_left fun f _ => hg f
  rw [Distinct, hnames]
  exact hd

theorem Named.assign (hfs : Named fs) (a : Assignment) :
    Named { fs with flags := fs.flags.map (Flags.assign · a) } := by
  constructor
  · exact distinct_map (fun f => assign_name f a) hfs.1
  · intro g hg
    obtain ⟨f, hf, rfl⟩ := List.mem_map.mp hg
    rw [assign_name]
    exact hfs.2 f hf

theorem admissible_assign {b : Assignment} (hb : b.Admissible fs) (a : Assignment) :
    b.Admissible { fs with flags := fs.flags.map (assign · a) } := by
  obtain ⟨f, hf, hname, hadmits⟩ := hb
  exact ⟨assign f a, List.mem_map_of_mem hf, by rw [assign_name, hname],
    by rw [assign_kind]; exact hadmits⟩

theorem valid_assign_iff {b : Assignment} (a : Assignment) :
    b.Valid { fs with flags := fs.flags.map (assign · a) } ↔ b.Valid fs := by
  simp [Assignment.Valid]

/-- The parser on assignments that are all ones for their flags. -/
theorem parse_assignments_ok {as : List Assignment} (hfs : Named fs)
    (has : ∀ a ∈ as, a.Admissible fs) (hvalid : ∀ a ∈ as, a.Valid fs) {tail : Tail}
    (htail : tail.WellFormed) :
    fs.parse (as.flatMap Assignment.render ++ tail.args) =
      ({ fs with flags := fs.flags.map (as.foldl assign ·), remaining := tail.remaining },
        .ok ()) := by
  induction as generalizing fs with
  | nil =>
    rw [List.flatMap_nil, List.nil_append, parse_tail fs htail]
    simp
  | cons a as ih =>
    rw [List.forall_mem_cons] at has hvalid
    obtain ⟨⟨f, hf, hname, hadmits⟩, has⟩ := has
    obtain ⟨f', hset⟩ := setFlagValue_ok_iff.mpr (hvalid.1 f hf hname)
    rw [List.flatMap_cons, List.append_assoc, (parse_render hfs hf hname hadmits _).1 f' hset,
      ih (hfs.assign a) (fun b hb => admissible_assign (has b hb) a)
        (fun b hb => (valid_assign_iff a).mpr (hvalid.2 b hb))]
    simp [Function.comp_def]

/-- The parser on assignments of which one is none for its flag. -/
theorem parse_assignments_error {as : List Assignment} (hfs : Named fs)
    (has : ∀ a ∈ as, a.Admissible fs) (hinvalid : ¬ ∀ a ∈ as, a.Valid fs) (rest : List String) :
    ∃ fs' e, fs.parse (as.flatMap Assignment.render ++ rest) = (fs', .error e) := by
  induction as generalizing fs with
  | nil => exact absurd (fun a ha => absurd ha List.not_mem_nil) hinvalid
  | cons a as ih =>
    rw [List.forall_mem_cons] at has hinvalid
    obtain ⟨⟨f, hf, hname, hadmits⟩, has⟩ := has
    rw [List.flatMap_cons, List.append_assoc]
    cases hset : setFlagValue f a.raw with
    | error reason => exact ⟨_, _, (parse_render hfs hf hname hadmits _).2 reason hset⟩
    | ok f' =>
      -- the flag takes this value, so the one that is refused comes later
      have ha : a.Valid fs := by
        intro g hg hgname
        obtain rfl := hfs.1.eq_of_key hg hf (hgname.trans hname.symm)
        exact setFlagValue_ok_iff.mp ⟨f', hset⟩
      rw [(parse_render hfs hf hname hadmits _).1 f' hset]
      refine ih (hfs.assign a) (fun b hb => admissible_assign (has b hb) a) fun hvalid => ?_
      exact hinvalid ⟨ha, fun b hb => (valid_assign_iff a).mp (hvalid b hb)⟩

end

/-! ## What a flag ends up with -/

/-- The values that a flag is given. -/
def assigned (as : List Assignment) (name : String) : List String :=
  (as.filter fun a => a.name = name).map Assignment.raw

section

variable {f : Flag} {as : List Assignment}

/-- Nothing of a flag changes but its value and its mark. -/
theorem foldl_assign_frame (f : Flag) (as : List Assignment) :
    as.foldl assign f =
      { f with value := (as.foldl assign f).value, setByCli := (as.foldl assign f).setByCli } := by
  induction as generalizing f with
  | nil => rfl
  | cons a as ih =>
    have hrest := ih (assign f a)
    rw [assign_frame f a] at hrest
    rw [List.foldl_cons, assign_frame f a]
    exact hrest

@[simp] theorem foldl_assign_name (f : Flag) (as : List Assignment) :
    (as.foldl assign f).name = f.name := by
  rw [foldl_assign_frame]

@[simp] theorem foldl_assign_kind (f : Flag) (as : List Assignment) :
    (as.foldl assign f).kind = f.kind := by
  rw [foldl_assign_frame]

@[simp] theorem foldl_assign_setByEnv (f : Flag) (as : List Assignment) :
    (as.foldl assign f).setByEnv = f.setByEnv := by
  rw [foldl_assign_frame]

/-- A flag is marked by any assignment to it. -/
theorem foldl_assign_setByCli (hvalid : ∀ a ∈ as, f.name = a.name → ValidFor f.kind a.raw) :
    (as.foldl assign f).setByCli = true ↔
      f.setByCli = true ∨ f.name ∈ as.map Assignment.name := by
  induction as generalizing f with
  | nil => simp
  | cons a as ih =>
    rw [List.forall_mem_cons] at hvalid
    rw [List.foldl_cons, ih (by simpa using hvalid.2), List.map_cons, List.mem_cons, assign_name]
    by_cases hname : f.name = a.name
    · obtain ⟨f', hset⟩ := setFlagValue_ok_iff.mpr (hvalid.1 hname)
      rw [assign_of_ok hname hset]
      simp [hname]
    · rw [assign_of_ne hname]
      simp [hname]

/-- A slice is given all of its values. -/
theorem foldl_assign_slice {items : List String} (hkind : f.kind = .slice)
    (hvalue : f.value = .slice items) :
    (as.foldl assign f).value = .slice (items ++ assigned as f.name) := by
  induction as generalizing f items with
  | nil => simp [assigned, hvalue]
  | cons a as ih =>
    rw [List.foldl_cons]
    by_cases hname : f.name = a.name
    · have hset : setFlagValue f a.raw = .ok { f with value := .slice (items ++ [a.raw]) } := by
        simp [setFlagValue, hkind, hvalue]
      have hassigned : assigned (a :: as) f.name = a.raw :: assigned as f.name := by
        simp [assigned, hname]
      have hvalue' : (assign f a).value = .slice (items ++ [a.raw]) := by
        rw [assign_of_ok hname hset]
      rw [ih ((assign_kind f a).trans hkind) hvalue', assign_name, hassigned, List.append_assoc,
        List.singleton_append]
    · have hassigned : assigned (a :: as) f.name = assigned as f.name := by
        simp [assigned, Ne.symm hname]
      rw [assign_of_ne hname, ih hkind hvalue, hassigned]

/-- The value that another flag takes is not a matter of the value that it has. -/
theorem setFlagValue_value {g f' : Flag} {raw : String} (hkind : f.kind ≠ .slice)
    (hg : g.kind = f.kind) (h : setFlagValue g raw = .ok f') :
    setFlagValue f raw = .ok { f with value := f'.value } := by
  rw [setFlagValue, hg] at h
  rw [setFlagValue]
  cases hf : f.kind with
  | bool =>
    rw [hf] at h
    obtain ⟨b, hb, rfl⟩ := Results.map_ok_iff.mp h
    exact Results.map_ok_iff.mpr ⟨b, hb, rfl⟩
  | int =>
    rw [hf] at h
    obtain ⟨n, hn, rfl⟩ := Results.map_ok_iff.mp h
    exact Results.map_ok_iff.mpr ⟨n, hn, rfl⟩
  | str =>
    rw [hf] at h
    cases h
    rfl
  | slice => exact absurd hf hkind

/-- Any other flag is given the last of its values. -/
theorem foldl_assign_last {raw : String} (hkind : f.kind ≠ .slice)
    (hvalid : ∀ a ∈ as, f.name = a.name → ValidFor f.kind a.raw)
    (hlast : (assigned as f.name).getLast? = some raw) :
    setFlagValue f raw = .ok { f with value := (as.foldl assign f).value } := by
  -- the last assignment decides, so the induction is from the end
  induction as using List.reverseRecOn with
  | nil => cases hlast
  | append_singleton as a ih =>
    rw [List.forall_mem_append, List.forall_mem_singleton] at hvalid
    rw [List.foldl_append, List.foldl_cons, List.foldl_nil]
    by_cases hname : f.name = a.name
    · have hassigned : assigned (as ++ [a]) f.name = assigned as f.name ++ [a.raw] := by
        simp [assigned, hname]
      rw [hassigned, List.getLast?_concat, Option.some.injEq] at hlast
      obtain ⟨f', hset⟩ : ∃ f', setFlagValue (as.foldl assign f) a.raw = .ok f' := by
        rw [setFlagValue_ok_iff, foldl_assign_kind]
        exact hvalid.2 hname
      have hvalue := setFlagValue_value hkind (foldl_assign_kind f as) hset
      rw [assign_of_ok ((foldl_assign_name f as).trans hname) hset, ← hlast]
      exact hvalue
    · have hassigned : assigned (as ++ [a]) f.name = assigned as f.name := by
        simp [assigned, Ne.symm hname]
      rw [hassigned] at hlast
      rw [assign_of_ne (by rwa [foldl_assign_name]), ih hvalid.1 hlast]

end

/-! ## Freshly registered flags -/

/-- A flag that has just been registered. -/
def Fresh (f : Flag) : Prop :=
  f.setByCli = false ∧ f.setByEnv = false ∧ (f.kind = .slice → f.value = .slice [])

section

variable {fs fs' : FlagSet}

theorem register_fresh {name help : String} {kind : Kind} {default : Value}
    (hd : Distinct Flag.name fs.flags) (hfs : ∀ f ∈ fs.flags, Fresh f)
    (hslice : kind = .slice → default = .slice [])
    (h : fs.register name kind default help = some fs') :
    Distinct Flag.name fs'.flags ∧ ∀ f ∈ fs'.flags, Fresh f := by
  rw [FlagSet.register] at h
  cases hfind : fs.find name with
  | some r => simp [hfind] at h
  | none =>
    simp only [hfind, Option.some.injEq] at h
    rw [← h]
    have hnew : name ∉ fs.flags.map Flag.name := by
      intro hmem
      obtain ⟨f, hf, rfl⟩ := List.mem_map.mp hmem
      have hno := firstMatch_eq_none.mp hfind f hf
      simp at hno
    refine ⟨hd.snoc hnew, fun f hf => ?_⟩
    rcases List.mem_append.mp hf with hf | hf
    · exact hfs f hf
    · rw [List.mem_singleton.mp hf]
      exact ⟨rfl, rfl, hslice⟩

theorem apply_fresh {reg : Registration} (hd : Distinct Flag.name fs.flags)
    (hfs : ∀ f ∈ fs.flags, Fresh f) (h : reg.apply fs = some fs') :
    Distinct Flag.name fs'.flags ∧ ∀ f ∈ fs'.flags, Fresh f := by
  cases reg with
  | bool name default help => exact register_fresh hd hfs (fun hkind => by cases hkind) h
  | int name default help => exact register_fresh hd hfs (fun hkind => by cases hkind) h
  | string name default help => exact register_fresh hd hfs (fun hkind => by cases hkind) h
  | slice name help => exact register_fresh hd hfs (fun _ => rfl) h

theorem foldlM_apply_fresh {regs : List Registration} (hd : Distinct Flag.name fs.flags)
    (hfs : ∀ f ∈ fs.flags, Fresh f) (h : regs.foldlM Registration.apply fs = some fs') :
    Distinct Flag.name fs'.flags ∧ ∀ f ∈ fs'.flags, Fresh f := by
  induction regs generalizing fs with
  | nil =>
    cases h
    exact ⟨hd, hfs⟩
  | cons reg regs ih =>
    rw [List.foldlM_cons] at h
    obtain ⟨fs₁, hreg, h⟩ := Option.bind_eq_some_iff.mp h
    obtain ⟨hd₁, hfs₁⟩ := apply_fresh hd hfs hreg
    exact ih hd₁ hfs₁ h

theorem registered_fresh {name : String} {regs : List Registration} {tolerated : List String}
    (h : registered name regs tolerated = some fs) :
    Distinct Flag.name fs.flags ∧ ∀ f ∈ fs.flags, Fresh f := by
  obtain ⟨fs₁, hregs, rfl⟩ := Option.map_eq_some_iff.mp h
  have hd : Distinct Flag.name (FlagSet.new name).flags := List.nodup_nil
  have hfresh := foldlM_apply_fresh hd (fun f hf => absurd hf List.not_mem_nil) hregs
  exact hfresh

/-- The flags that are marked after the assignments are those that are assigned. -/
theorem isSet_assigned_iff {as : List Assignment} {remaining : List String} (hfs : Named fs)
    (hfresh : ∀ f ∈ fs.flags, Fresh f) (has : ∀ a ∈ as, a.Admissible fs)
    (hvalid : ∀ a ∈ as, a.Valid fs) (n : String) :
    FlagSet.isSet { fs with flags := fs.flags.map (as.foldl assign ·), remaining := remaining } n =
      true ↔ n ∈ as.map Assignment.name := by
  have hmark : ∀ f ∈ fs.flags, (as.foldl assign f).setByCli = true ↔
      f.name ∈ as.map Assignment.name := by
    intro f hf
    rw [foldl_assign_setByCli fun a ha hname => hvalid a ha f hf hname, (hfresh f hf).1]
    simp
  have hd := distinct_map (fun f => foldl_assign_name f as) hfs.1
  constructor
  · intro hset
    rw [FlagSet.isSet] at hset
    split at hset
    · next pre g post hfind =>
      obtain ⟨hsplit, hg, -⟩ := firstMatch_eq_some hfind
      have hmem : g ∈ pre ++ g :: post := List.mem_append_right pre (List.mem_cons_self ..)
      rw [← hsplit] at hmem
      obtain ⟨f, hf, rfl⟩ := List.mem_map.mp hmem
      rw [foldl_assign_setByEnv, (hfresh f hf).2.1, Bool.or_false, hmark f hf] at hset
      rwa [← of_decide_eq_true hg, foldl_assign_name]
    · cases hset
  · intro hn
    obtain ⟨a, ha, rfl⟩ := List.mem_map.mp hn
    obtain ⟨f, hf, hname, -⟩ := has a ha
    obtain ⟨pre, post, hfind, -⟩ := find_eq
      (show Distinct Flag.name (FlagSet.flags { fs with
        flags := fs.flags.map (as.foldl assign ·), remaining := remaining }) from hd)
      (List.mem_map_of_mem hf)
    rw [foldl_assign_name, hname] at hfind
    rw [FlagSet.isSet, hfind]
    simp [(hmark f hf).mpr (hname ▸ hn)]

end

/-- **The command line.**  For assignments to flags that have just been registered, in any of the
forms, and with a tail behind them, `parse` succeeds exactly if every value is one for its flag.
The flags are then those that `set_flag_value` gives in order: a slice has all of its values and
any other flag the last one.  The flags that are marked are those that are assigned, and the tail
is left over. -/
theorem parse_spec {name : String} {regs : List Registration} {tolerated : List String}
    {fs : FlagSet} (hregs : registered name regs tolerated = some fs)
    (hnames : ∀ f ∈ fs.flags, GoodName f.name) {as : List Assignment}
    (has : ∀ a ∈ as, a.Admissible fs) {tail : Tail} (htail : tail.WellFormed) :
    ((fs.parse (as.flatMap Assignment.render ++ tail.args)).2 = .ok () ↔ ∀ a ∈ as, a.Valid fs) ∧
    ∀ fs', fs.parse (as.flatMap Assignment.render ++ tail.args) = (fs', .ok ()) →
      fs'.flags = fs.flags.map (as.foldl assign ·) ∧
      (∀ f ∈ fs.flags, f.kind = .slice →
        (as.foldl assign f).value = .slice (assigned as f.name)) ∧
      (∀ f ∈ fs.flags, f.kind ≠ .slice → ∀ raw, (assigned as f.name).getLast? = some raw →
        setFlagValue f raw = .ok { f with value := (as.foldl assign f).value }) ∧
      (∀ n, fs'.isSet n = true ↔ n ∈ as.map Assignment.name) ∧
      fs'.remainingArgs = tail.remaining := by
  obtain ⟨hd, hfresh⟩ := registered_fresh hregs
  have hfs : Named fs := ⟨hd, hnames⟩
  by_cases hvalid : ∀ a ∈ as, a.Valid fs
  · rw [parse_assignments_ok hfs has hvalid htail]
    refine ⟨iff_of_true rfl hvalid, ?_⟩
    rintro fs' hfs'
    cases hfs'
    refine ⟨rfl, ?_, ?_, isSet_assigned_iff hfs hfresh has hvalid, rfl⟩
    · intro f hf hkind
      exact foldl_assign_slice hkind ((hfresh f hf).2.2 hkind)
    · intro f hf hkind raw hlast
      exact foldl_assign_last hkind (fun a ha hname => hvalid a ha f hf hname) hlast
  · obtain ⟨fs₁, e, hparse⟩ := parse_assignments_error hfs has hvalid tail.args
    rw [hparse]
    refine ⟨iff_of_false (fun h => by cases h) hvalid, ?_⟩
    intro fs' hfs'
    cases hfs'

/-- Values that look like flags, and a flag behind the end of the flags. -/
theorem parse_spec_dashes :
    ∃ fs, registered "flannel" [.int "x" 0 "some int", .slice "r" "repeatable"] [] = some fs ∧
      (fs.parse ["--x", "-5", "-r=a=b", "-r", "--", "--", "-x"]).2 = .ok () ∧
      ∀ fs', fs.parse ["--x", "-5", "-r=a=b", "-r", "--", "--", "-x"] = (fs', .ok ()) →
        (∀ n, fs'.isSet n = true ↔ n ∈ ["x", "r", "r"]) ∧ fs'.remainingArgs = ["-x"] := by
  refine ⟨⟨"flannel", [⟨"x", .int, "some int", .int 0, .int 0, false, false⟩,
    ⟨"r", .slice, "repeatable", .slice [], .slice [], false, false⟩], [], []⟩, by decide, ?_⟩
  have hargs : ["--x", "-5", "-r=a=b", "-r", "--", "--", "-x"] =
      [.separate true "x" "-5", .inline false "r" "a=b", .separate false "r" "--"].flatMap
        Assignment.render ++ (Tail.terminated ["-x"]).args := by decide
  rw [hargs]
  obtain ⟨hok, hspec⟩ := parse_spec
    (show registered "flannel" [.int "x" 0 "some int", .slice "r" "repeatable"] [] =
      some ⟨"flannel", [⟨"x", .int, "some int", .int 0, .int 0, false, false⟩,
        ⟨"r", .slice, "repeatable", .slice [], .slice [], false, false⟩], [], []⟩ by decide)
    (by simp [GoodName]) (show ∀ a ∈ [.separate true "x" "-5", .inline false "r" "a=b",
      .separate false "r" "--"], Assignment.Admissible _ a by
        simp [Assignment.Admissible, Assignment.name, Assignment.Admits])
    (show (Tail.terminated ["-x"]).WellFormed from trivial)
  refine ⟨hok.mpr ?_, fun fs' hfs' => ?_⟩
  · have hfive : parseInt "-5" = .ok (-5) := by decide
    simp [Assignment.Valid, Assignment.name, Assignment.raw, ValidFor, hfive]
  · obtain ⟨-, -, -, hset, hrest⟩ := hspec fs' hfs'
    exact ⟨hset, hrest⟩

end Flags

end Flannel
