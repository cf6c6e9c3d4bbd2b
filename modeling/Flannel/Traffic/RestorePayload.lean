import Flannel.Ip.Display
import Flannel.Lib.Framing
import Flannel.Lib.Words
import Flannel.Traffic.IPTablesManager

/-!
# The text of a transaction

`build_payload` of `iptables_restore.rs`: a transaction is handed to `iptables-restore` as a
text.  For each table there is a line with its name behind a star, a line for each rule, and a
line that commits.  The arguments of a rule stand between single spaces; only the argument behind
`--comment` is put in quotes, and no character is escaped.

So a transaction is read back as it was written only if its arguments allow it: those without
quotes must not be empty and must have no blanks and no quotes, and a comment must have no quote
and no backslash.  The transactions of the daemon do, for every network and whatever the kernel
holds, and therefore what is done to the tables by way of the text is what the transaction says.

The reader is not modelled: it is anything that splits a line and takes a text apart as the format
is documented (`RestoreReader.Documented`).
-/

namespace Flannel

open Words Framing

/-! ## The source's functions -/

/-- What is written for an argument. -/
def payloadToken (previous : Option String) (token : String) : List Char :=
  if previous = some "--comment" then '"' :: (token.toList ++ ['"']) else token.toList

/-- The loop of `build_payload` over the arguments of a rule: behind the last one the line ends.
Nothing is written for a rule without arguments. -/
def payloadLine : Option String → List String → List Char
  | _, [] => []
  | previous, [token] => payloadToken previous token ++ ['\n']
  | previous, token :: next :: tokens =>
    payloadToken previous token ++ ' ' :: payloadLine (some token) (next :: tokens)

/-- What is written for a table. -/
def payloadBlock (block : String × List (List String)) : List Char :=
  '*' :: (block.1.toList ++ '\n' :: (block.2.flatMap (payloadLine none) ++ "COMMIT\n".toList))

/-- `build_payload`. -/
def buildPayload (tableRules : IPTablesRestoreRules) : String :=
  String.ofList (tableRules.flatMap payloadBlock)

/-! ## The reader -/

/-- A reader of such texts: the arguments of a line, and the transaction of a text. -/
structure RestoreReader where
  words : List Char → List String
  read : List Char → Option IPTablesRestoreRules

/-- What the format is documented to mean, as far as it is used here. -/
structure RestoreReader.Documented (reader : RestoreReader) : Prop where
  /-- an argument without blanks and quotes is taken as it is, up to a blank or the end -/
  bare : ∀ {word : List Char}, IsBare word → reader.words word = [String.ofList word] ∧
    ∀ rest, reader.words (word ++ ' ' :: rest) = String.ofList word :: reader.words rest
  /-- quotes are taken off an argument that has none inside, and no backslash -/
  quoted : ∀ {word : List Char}, IsQuotable word →
    reader.words ('"' :: (word ++ ['"'])) = [String.ofList word] ∧
    ∀ rest, reader.words ('"' :: (word ++ '"' :: ' ' :: rest)) =
      String.ofList word :: reader.words rest
  empty : reader.read [] = some []
  /-- a block is the name of a table behind a star, its lines, and a commit -/
  block : ∀ {table : List Char} {lines : List (List Char)} {rest : List Char}, '\n' ∉ table →
    (∀ line ∈ lines, '\n' ∉ line ∧ line.head? = some '-') →
    reader.read ('*' :: (table ++ '\n' :: (lines.flatMap (· ++ ['\n']) ++
        ("COMMIT\n".toList ++ rest)))) =
      (reader.read rest).map ((String.ofList table, lines.map reader.words) :: ·)

/-- The transaction of a text. -/
def readPayload (reader : RestoreReader) (payload : String) : Option IPTablesRestoreRules :=
  reader.read payload.toList

/-! ## Rules that can be written -/

/-- An argument that can be written behind the one before it. -/
def TokenOk (previous : Option String) (token : String) : Prop :=
  if previous = some "--comment" then IsQuotable token.toList else IsBare token.toList

/-- Arguments that can be written. -/
def LineOk : Option String → List String → Prop
  | _, [] => True
  | previous, token :: tokens => TokenOk previous token ∧ LineOk (some token) tokens

/-- A line that can be written, and begins with a dash. -/
def RuleLine (line : List String) : Prop :=
  LineOk none line ∧ ∃ token tokens, line = token :: tokens ∧ token.toList.head? = some '-'

/-- A transaction that can be written. -/
def Printable (tableRules : IPTablesRestoreRules) : Prop :=
  ∀ block ∈ tableRules, '\n' ∉ block.1.toList ∧ ∀ line ∈ block.2, RuleLine line

/-- A line without its end. -/
def lineText : Option String → List String → List Char
  | _, [] => []
  | previous, [token] => payloadToken previous token
  | previous, token :: next :: tokens =>
    payloadToken previous token ++ ' ' :: lineText (some token) (next :: tokens)

theorem payloadLine_eq (previous : Option String) (token : String) (tokens : List String) :
    payloadLine previous (token :: tokens) = lineText previous (token :: tokens) ++ ['\n'] := by
  induction tokens generalizing previous token with
  | nil => rfl
  | cons next tokens ih =>
    rw [payloadLine, lineText, ih, List.append_assoc, List.cons_append]

section Lines

variable {reader : RestoreReader} {previous : Option String} {token : String}
  {tokens : List String}

/-- **The arguments come back.** -/
theorem words_lineText (hdoc : reader.Documented) (h : LineOk previous (token :: tokens)) :
    reader.words (lineText previous (token :: tokens)) = token :: tokens := by
  induction tokens generalizing previous token with
  | nil =>
    obtain ⟨htoken, -⟩ := h
    by_cases hprev : previous = some "--comment"
    · rw [TokenOk, if_pos hprev] at htoken
      rw [lineText, payloadToken, if_pos hprev, (hdoc.quoted htoken).1, String.ofList_toList]
    · rw [TokenOk, if_neg hprev] at htoken
      rw [lineText, payloadToken, if_neg hprev, (hdoc.bare htoken).1, String.ofList_toList]
  | cons next tokens ih =>
    obtain ⟨htoken, hrest⟩ := h
    by_cases hprev : previous = some "--comment"
    · rw [TokenOk, if_pos hprev] at htoken
      rw [lineText, payloadToken, if_pos hprev, List.cons_append, List.append_assoc,
        List.singleton_append, (hdoc.quoted htoken).2, String.ofList_toList, ih hrest]
    · rw [TokenOk, if_neg hprev] at htoken
      rw [lineText, payloadToken, if_neg hprev, (hdoc.bare htoken).2, String.ofList_toList,
        ih hrest]

theorem newline_notMem_token (h : TokenOk previous token) :
    '\n' ∉ payloadToken previous token := by
  unfold TokenOk at h
  unfold payloadToken
  split_ifs at h ⊢ with hprev
  · intro hmem
    rcases List.mem_cons.mp hmem with hc | hmem
    · cases hc
    · rcases List.mem_append.mp hmem with hmem | hmem
      · exact (h _ hmem).2.2 rfl
      · rw [List.mem_singleton] at hmem
        cases hmem
  · intro hmem
    have hblank := (h.2 _ hmem).1
    cases hblank

theorem newline_notMem_lineText (h : LineOk previous tokens) :
    '\n' ∉ lineText previous tokens := by
  induction tokens generalizing previous with
  | nil => exact List.not_mem_nil
  | cons token tokens ih =>
    obtain ⟨htoken, hrest⟩ := h
    cases tokens with
    | nil => exact newline_notMem_token htoken
    | cons next tokens =>
      rw [lineText, List.mem_append, List.mem_cons, not_or, not_or]
      exact ⟨newline_notMem_token htoken, by decide, ih hrest⟩

theorem head_lineText {line : List String} (h : RuleLine line) :
    (lineText none line).head? = some '-' := by
  obtain ⟨-, token, tokens, rfl, hhead⟩ := h
  have hne : token.toList ≠ [] := by
    intro hnil
    rw [hnil] at hhead
    cases hhead
  cases tokens with
  | nil => rw [lineText, payloadToken, if_neg (by simp), hhead]
  | cons next tokens =>
    rw [lineText, payloadToken, if_neg (by simp), List.head?_append_of_ne_nil _ hne, hhead]

end Lines

/-! ## The transaction comes back -/

section Blocks

variable {reader : RestoreReader} {m : IPTablesRestoreRules}

/-- The lines of the rules. -/
theorem flatMap_payloadLine {rules : List (List String)} (h : ∀ line ∈ rules, RuleLine line) :
    rules.flatMap (payloadLine none) =
      (rules.map (lineText none)).flatMap (· ++ ['\n']) := by
  rw [List.flatMap_map]
  refine List.flatMap_congr fun line hline => ?_
  obtain ⟨-, token, tokens, rfl, -⟩ := h line hline
  exact payloadLine_eq none token tokens

/-- A block in front of a text. -/
theorem read_payloadBlock (hdoc : reader.Documented) {table : String}
    {rules : List (List String)} (htable : '\n' ∉ table.toList)
    (hrules : ∀ line ∈ rules, RuleLine line) (rest : List Char) :
    reader.read (payloadBlock (table, rules) ++ rest) =
      (reader.read rest).map ((table, rules) :: ·) := by
  have hlines : ∀ line ∈ rules.map (lineText none), '\n' ∉ line ∧ line.head? = some '-' := by
    intro line hline
    obtain ⟨tokens, htokens, rfl⟩ := List.mem_map.mp hline
    exact ⟨newline_notMem_lineText (hrules tokens htokens).1, head_lineText (hrules tokens htokens)⟩
  have hwords : (rules.map (lineText none)).map reader.words = rules := by
    rw [List.map_map]
    refine (List.map_congr_left fun line hline => ?_).trans (List.map_id rules)
    obtain ⟨hok, token, tokens, rfl, -⟩ := hrules line hline
    exact words_lineText hdoc hok
  have htext : payloadBlock (table, rules) ++ rest =
      '*' :: (table.toList ++ '\n' :: ((rules.map (lineText none)).flatMap (· ++ ['\n']) ++
        ("COMMIT\n".toList ++ rest))) := by
    rw [payloadBlock, flatMap_payloadLine hrules]
    simp only [List.cons_append, List.append_assoc]
  rw [htext, hdoc.block htable hlines, hwords, String.ofList_toList]

/-- **A transaction that can be written is read back.** -/
theorem readPayload_buildPayload (hdoc : reader.Documented) (h : Printable m) :
    readPayload reader (buildPayload m) = some m := by
  rw [readPayload, buildPayload, String.toList_ofList]
  induction m with
  | nil => exact hdoc.empty
  | cons block m ih =>
    obtain ⟨⟨htable, hrules⟩, hm⟩ := List.forall_mem_cons.mp h
    rw [List.flatMap_cons, read_payloadBlock hdoc htable hrules, ih hm]
    rfl

end Blocks

/-! ## The transactions of the daemon -/

-- The characters of the word are gone through, not all characters.
instance (word : List Char) : Decidable (IsBare word) :=
  @instDecidableAnd _ _ inferInstance (List.decidableBAll _ word)

instance (word : List Char) : Decidable (IsQuotable word) := List.decidableBAll _ word

instance (previous : Option String) (token : String) : Decidable (TokenOk previous token) :=
  inferInstanceAs (Decidable
    (if previous = some "--comment" then IsQuotable token.toList else IsBare token.toList))

/-- A rule that can be written. -/
structure IPTablesRule.Writable (r : IPTablesRule) : Prop where
  table : '\n' ∉ r.table.toList
  action : r.action = "-A"
  chain : TokenOk (some "-A") r.chain
  spec : LineOk (some r.chain) r.rulespec

section Writable

variable {k : Kernel} {r : IPTablesRule} {rules : List IPTablesRule} {m : IPTablesRestoreRules}

theorem ruleLine_withPrefix (h : r.Writable) {action : String}
    (haction : action = "-A" ∨ action = "-D") :
    RuleLine (withPrefix action r.chain r.rulespec) := by
  rcases haction with rfl | rfl
  · exact ⟨⟨by decide, h.chain, h.spec⟩, _, _, rfl, by decide⟩
  · exact ⟨⟨by decide, h.chain, h.spec⟩, _, _, rfl, by decide⟩

theorem ruleLine_ruleLines (h : r.Writable) : ∀ line ∈ ruleLines k r, RuleLine line := by
  intro line hline
  rw [ruleLines, List.mem_append, List.mem_singleton] at hline
  rcases hline with hdelete | rfl
  · split at hdelete
    · rw [List.mem_singleton.mp hdelete]
      exact ruleLine_withPrefix h (Or.inr rfl)
    · cases hdelete
  · exact ruleLine_withPrefix h (Or.inl h.action)

/-- Lines of a rule behind those of its table. -/
theorem Printable.upsert (hm : Printable m) (h : r.Writable) {lines : List (List String)}
    (hlines : ∀ line ∈ lines, RuleLine line) :
    Printable (SortedMap.upsert (fun entry => entry.getD [] ++ lines) r.table m) := by
  refine SortedMap.forall_mem_upsert
    (P := fun (table : String) (rules : List (List String)) =>
      '\n' ∉ table.toList ∧ ∀ line ∈ rules, RuleLine line) hm ?_ ?_
  · exact ⟨h.table, by simpa using hlines⟩
  · rintro v ⟨htable, hv⟩
    refine ⟨htable, fun line hline => ?_⟩
    rcases List.mem_append.mp hline with hline | hline
    · exact hv line hline
    · exact hlines line hline

theorem printable_cleanAndBuild (hm : Printable m) (h : ∀ r ∈ rules, r.Writable) :
    Printable (cleanAndBuildLoop k m rules).2 := by
  induction rules generalizing k m with
  | nil => exact hm
  | cons r rules ih =>
    obtain ⟨hr, hrules⟩ := List.forall_mem_cons.mp h
    exact ih (hm.upsert hr (ruleLine_ruleLines hr)) hrules

theorem printable_teardown (hm : Printable m) (h : ∀ r ∈ rules, r.Writable) :
    Printable (teardownLoop k m rules) := by
  induction rules generalizing m with
  | nil => exact hm
  | cons r rules ih =>
    obtain ⟨hr, hrules⟩ := List.forall_mem_cons.mp h
    rw [teardownLoop]
    split
    · refine ih (hm.upsert hr ?_) hrules
      intro line hline
      rw [List.mem_singleton.mp hline]
      exact ruleLine_withPrefix hr (Or.inr rfl)
    · exact ih hm hrules

end Writable

/-! ## The rules of the daemon can be written -/

theorem lineOk_append {previous : Option String} {a b : List String} :
    LineOk previous (a ++ b) ↔ LineOk previous a ∧ LineOk (a.getLast?.or previous) b := by
  induction a generalizing previous with
  | nil => simp [LineOk]
  | cons token a ih =>
    rw [List.cons_append, LineOk, LineOk, ih, and_assoc]
    cases a with
    | nil => rfl
    | cons next a =>
      have hlast := List.getLast?_eq_some_getLast (List.cons_ne_nil next a)
      rw [List.getLast?_cons_cons, hlast]
      rfl

/-- The tail that every rule carries. -/
theorem lineOk_tail {previous : Option String} (hprevious : previous ≠ some "--comment")
    {comment jump : String} (hcomment : IsQuotable comment.toList)
    (hne : comment ≠ "--comment") (hjump : IsBare jump.toList) :
    LineOk previous ["-m", "comment", "--comment", comment, "-j", jump] := by
  refine ⟨?_, by decide, by decide, hcomment, ?_, ?_, trivial⟩
  · rw [TokenOk, if_neg hprevious]
    decide
  · rw [TokenOk, if_neg (by simpa using hne)]
    decide
  · rw [TokenOk, if_neg (by decide)]
    exact hjump

/-- A network without blanks and quotes in its text. -/
theorem isBare_of_addrChars {text : String} (hne : text.toList ≠ [])
    (h : ∀ c ∈ text.toList, StdAddr.isAddrChar c = true ∨ c = '/') : IsBare text.toList := by
  refine ⟨hne, fun c hc => ⟨?_, ?_⟩⟩
  · rw [Bool.eq_false_iff]
    intro hblank
    simp only [isBlank, Bool.or_eq_true, beq_iff_eq] at hblank
    rcases hblank with (rfl | rfl) | rfl
    · exact absurd (h _ hc) (by decide)
    · exact absurd (h _ hc) (by decide)
    · exact absurd (h _ hc) (by decide)
  · rintro rfl
    exact absurd (h _ hc) (by decide)

theorem isBare_ip4Net (n : IP4Net) : IsBare n.toString.toList := by
  refine isBare_of_addrChars ?_ fun c hc => IP4Net.mem_toString hc
  rw [IP4Net.toString_eq, String.toList_append, String.toList_ofList]
  simp

theorem isBare_ip6Net (n : IP6Net) : IsBare n.toString.toList := by
  refine isBare_of_addrChars ?_ fun c hc => IP6Net.mem_toString hc
  rw [IP6Net.toString_eq, String.toList_append, String.toList_ofList]
  simp

/-- A plain argument behind anything but `--comment`. -/
theorem tokenOk_bare {previous token : String} (hprevious : previous ≠ "--comment")
    (h : IsBare token.toList) : TokenOk (some previous) token := by
  rw [TokenOk, if_neg (by simpa using hprevious)]
  exact h

/-- A commented rule: its own parts, and what may stand behind the tail. -/
theorem lineOk_commented {previous : Option String} {parts suffix : List String}
    {comment jump : String} (hparts : LineOk previous parts)
    (hlast : parts.getLast?.or previous ≠ some "--comment") (hcomment : IsQuotable comment.toList)
    (hne : comment ≠ "--comment") (hjump : IsBare jump.toList) (hjump' : jump ≠ "--comment")
    (hsuffix : ∀ token ∈ suffix, IsBare token.toList ∧ token ≠ "--comment") :
    LineOk previous (commented parts comment jump ++ suffix) := by
  have hend : ∀ (suffix : List String) (before : String), before ≠ "--comment" →
      (∀ token ∈ suffix, IsBare token.toList ∧ token ≠ "--comment") →
      LineOk (some before) suffix := by
    intro suffix
    induction suffix with
    | nil => exact fun _ _ _ => trivial
    | cons token suffix ih =>
      intro before hbefore htokens
      obtain ⟨htoken, hrest⟩ := List.forall_mem_cons.mp htokens
      exact ⟨tokenOk_bare hbefore htoken.1, ih token htoken.2 hrest⟩
  rw [commented, lineOk_append, lineOk_append]
  refine ⟨⟨hparts, lineOk_tail hlast hcomment hne hjump⟩, ?_⟩
  have hjumped : (parts ++ ["-m", "comment", "--comment", comment, "-j", jump]).getLast? =
      some jump := by
    rw [List.getLast?_append]
    rfl
  rw [hjumped]
  exact hend suffix jump hjump' hsuffix

/-- The rules that the daemon writes. -/
inductive FlannelRules : List IPTablesRule → Prop
  | masq (network subnet : IP4Net) (disable supports : Bool) :
    FlannelRules (masqRules network subnet disable supports)
  | masq6 (network subnet : IP6Net) (disable supports : Bool) :
    FlannelRules (masqIp6Rules network subnet disable supports)
  | forward (network : IP4Net) : FlannelRules (forwardRules network.toString)
  | forward6 (network : IP6Net) : FlannelRules (forwardRules network.toString)

theorem writable_masqRulesWith {clusterCidr podCidr multicast : String}
    (hcluster : IsBare clusterCidr.toList) (hpod : IsBare podCidr.toList)
    (hmulticast : IsBare multicast.toList) (hclusterne : clusterCidr ≠ "--comment")
    (hpodne : podCidr ≠ "--comment") (hmulticastne : multicast ≠ "--comment")
    (disable supports : Bool) :
    ∀ r ∈ masqRulesWith clusterCidr podCidr multicast disable supports, r.Writable := by
  have hsuffix : ∀ token ∈ (if (supports && !disable) = true then ["--random-fully"] else []),
      IsBare token.toList ∧ token ≠ "--comment" := by
    intro token htoken
    split at htoken
    · rw [List.mem_singleton.mp htoken]
      decide
    · cases htoken
  -- one rule of the chain, from its own parts
  have hrule : ∀ {chain jump : String} {parts suffix : List String},
      TokenOk (some "-A") chain → LineOk (some chain) parts →
      parts.getLast?.or (some chain) ≠ some "--comment" → IsBare jump.toList →
      jump ≠ "--comment" → (∀ token ∈ suffix, IsBare token.toList ∧ token ≠ "--comment") →
      (rule "nat" chain (commented parts "flanneld masq" jump ++ suffix)).Writable := by
    intro chain jump parts suffix hchain hparts hlast hjump hjump' hsuffix
    exact ⟨(by decide : '\n' ∉ "nat".toList), rfl, hchain,
      lineOk_commented hparts hlast (by decide) (by decide) hjump hjump' hsuffix⟩
  have hnone : ∀ token ∈ ([] : List String), IsBare token.toList ∧ token ≠ "--comment" := nofun
  have hplain : ∀ {chain jump : String} {parts : List String},
      TokenOk (some "-A") chain → LineOk (some chain) parts →
      parts.getLast?.or (some chain) ≠ some "--comment" → IsBare jump.toList →
      jump ≠ "--comment" → (rule "nat" chain (commented parts "flanneld masq" jump)).Writable := by
    intro chain jump parts hchain hparts hlast hjump hjump'
    have hwritable := hrule hchain hparts hlast hjump hjump' hnone
    rwa [List.append_nil] at hwritable
  intro r hr
  simp only [masqRulesWith, List.mem_cons, List.not_mem_nil, or_false] at hr
  rcases hr with rfl | rfl | rfl | rfl | rfl | rfl | rfl
  · exact hplain (by decide) trivial (by decide) (by decide) (by decide)
  · exact hplain (by decide) ⟨by decide, by decide, by decide, by decide, trivial⟩ (by decide)
      (by decide) (by decide)
  · exact hplain (by decide) ⟨by decide, tokenOk_bare (by decide) hpod,
      tokenOk_bare hpodne (by decide), tokenOk_bare (by decide) hcluster, trivial⟩
      (by simpa using hclusterne) (by decide) (by decide)
  · exact hplain (by decide) ⟨by decide, tokenOk_bare (by decide) hcluster,
      tokenOk_bare hclusterne (by decide), tokenOk_bare (by decide) hpod, trivial⟩
      (by simpa using hpodne) (by decide) (by decide)
  · exact hplain (by decide) ⟨by decide, by decide, tokenOk_bare (by decide) hcluster,
      tokenOk_bare hclusterne (by decide), tokenOk_bare (by decide) hpod, trivial⟩
      (by simpa using hpodne) (by decide) (by decide)
  · exact hrule (by decide) ⟨by decide, tokenOk_bare (by decide) hcluster,
      tokenOk_bare hclusterne (by decide), by decide, tokenOk_bare (by decide) hmulticast,
      trivial⟩ (by simpa using hmulticastne) (by decide) (by decide) hsuffix
  · exact hrule (by decide) ⟨by decide, by decide, tokenOk_bare (by decide) hcluster,
      tokenOk_bare hclusterne (by decide), tokenOk_bare (by decide) hcluster, trivial⟩
      (by simpa using hclusterne) (by decide) (by decide) hsuffix

theorem writable_forwardRules {network : String} (hnetwork : IsBare network.toList)
    (hne : network ≠ "--comment") : ∀ r ∈ forwardRules network, r.Writable := by
  have hrule : ∀ {chain jump : String} {parts : List String},
      TokenOk (some "-A") chain → LineOk (some chain) parts →
      parts.getLast?.or (some chain) ≠ some "--comment" → IsBare jump.toList →
      jump ≠ "--comment" →
      (rule "filter" chain (commented parts "flanneld forward" jump)).Writable := by
    intro chain jump parts hchain hparts hlast hjump hjump'
    have hline := @lineOk_commented _ _ [] "flanneld forward" jump hparts hlast (by decide)
      (by decide) hjump hjump' nofun
    rw [List.append_nil] at hline
    exact ⟨(by decide : '\n' ∉ "filter".toList), rfl, hchain, hline⟩
  intro r hr
  simp only [forwardRules, List.mem_cons, List.not_mem_nil, or_false] at hr
  rcases hr with rfl | rfl | rfl
  · exact hrule (by decide) trivial (by decide) (by decide) (by decide)
  · exact hrule (by decide) ⟨by decide, tokenOk_bare (by decide) hnetwork, trivial⟩
      (by simpa using hne) (by decide) (by decide)
  · exact hrule (by decide) ⟨by decide, tokenOk_bare (by decide) hnetwork, trivial⟩
      (by simpa using hne) (by decide) (by decide)

/-- The text of a network is not that argument. -/
theorem ne_comment {text : String} (h : '/' ∈ text.toList) : text ≠ "--comment" := by
  rintro rfl
  exact absurd h (by decide)

theorem slash_mem_ip4Net (n : IP4Net) : '/' ∈ n.toString.toList := by
  rw [IP4Net.toString_eq, String.toList_append, String.toList_ofList]
  simp

theorem slash_mem_ip6Net (n : IP6Net) : '/' ∈ n.toString.toList := by
  rw [IP6Net.toString_eq, String.toList_append, String.toList_ofList]
  simp

theorem FlannelRules.writable {rules : List IPTablesRule} (h : FlannelRules rules) :
    ∀ r ∈ rules, r.Writable := by
  cases h with
  | masq network subnet disable supports =>
    exact writable_masqRulesWith (isBare_ip4Net _) (isBare_ip4Net _) (by decide)
      (ne_comment (slash_mem_ip4Net _)) (ne_comment (slash_mem_ip4Net _)) (by decide) _ _
  | masq6 network subnet disable supports =>
    exact writable_masqRulesWith (isBare_ip6Net _) (isBare_ip6Net _) (by decide)
      (ne_comment (slash_mem_ip6Net _)) (ne_comment (slash_mem_ip6Net _)) (by decide) _ _
  | forward network =>
    exact writable_forwardRules (isBare_ip4Net _) (ne_comment (slash_mem_ip4Net _))
  | forward6 network =>
    exact writable_forwardRules (isBare_ip6Net _) (ne_comment (slash_mem_ip6Net _))

/-! ## By way of the text -/

/-- `apply_without_flush`, by way of the text. -/
def applyText (reader : RestoreReader) (k : Kernel) (tablesRules : IPTablesRestoreRules) :
    Option Kernel :=
  (readPayload reader (buildPayload tablesRules)).bind (applyWithoutFlush k)

/-- **The text is the transaction.**  Take any reader of the documented format.  For all rules that
the daemon writes, with every network and subnet of both families, and whatever the tables of the
kernel hold: the texts of the transactions that build the rules and that tear them down are read
back as these transactions, so that building and tearing down by way of the text does to the
tables exactly what the transactions say. -/
theorem payload_is_transaction {reader : RestoreReader} (hdoc : reader.Documented) (k : Kernel)
    {rules : List IPTablesRule} (h : FlannelRules rules) :
    readPayload reader (buildPayload (ipTablesCleanAndBuild k rules).2) =
        some (ipTablesCleanAndBuild k rules).2 ∧
      readPayload reader (buildPayload (teardownLoop k [] rules)) =
        some (teardownLoop k [] rules) ∧
      applyText reader (ipTablesCleanAndBuild k rules).1 (ipTablesCleanAndBuild k rules).2 =
        ipTablesBootstrap k rules ∧
      applyText reader k (teardownLoop k [] rules) = teardownIpTables k rules := by
  have hbuild : readPayload reader (buildPayload (ipTablesCleanAndBuild k rules).2) =
      some (ipTablesCleanAndBuild k rules).2 :=
    readPayload_buildPayload hdoc (printable_cleanAndBuild (nofun : Printable []) h.writable)
  have hteardown : readPayload reader (buildPayload (teardownLoop k [] rules)) =
      some (teardownLoop k [] rules) :=
    readPayload_buildPayload hdoc (printable_teardown (nofun : Printable []) h.writable)
  refine ⟨hbuild, hteardown, ?_, ?_⟩
  · rw [applyText, hbuild, Option.bind_some]
    rfl
  · rw [applyText, hteardown, Option.bind_some]
    rfl

/-! ### A reader by lines -/

/-- The loop of a reader over the lines: empty ones and those with a hash in front are skipped. -/
def readLines : Option (String × List (List String)) → List (List Char) →
    Option IPTablesRestoreRules
  | none, [] => some []
  | some _, [] => none
  | block, line :: lines =>
    if line = [] ∨ line.head? = some '#' then readLines block lines
    else
      match block with
      | none =>
        match line with
        | '*' :: table => readLines (some (String.ofList table, [])) lines
        | _ => none
      | some (table, rules) =>
        if line = "COMMIT".toList then (readLines none lines).map ((table, rules) :: ·)
        else readLines (some (table, rules ++ [(wordsOf line).map String.ofList])) lines

/-- A reader that takes a text line by line; the last line must be complete. -/
def lineReader : RestoreReader where
  words := fun line => (wordsOf line).map String.ofList
  read := fun text =>
    let (lines, rest) := completeLines '\n' text
    if rest = [] then readLines none lines else none

/-- The lines of a block, and the commit at its end. -/
theorem readLines_block {table : String} {written : List (List String)}
    {lines : List (List Char)} {rest : List Char}
    (hlines : ∀ line ∈ lines, '\n' ∉ line ∧ line.head? = some '-') :
    readLines (some (table, written))
        (completeLines '\n' (lines.flatMap (· ++ ['\n']) ++ ("COMMIT\n".toList ++ rest))).1 =
      (readLines none (completeLines '\n' rest).1).map
        ((table, written ++ lines.map lineReader.words) :: ·) ∧
    (completeLines '\n' (lines.flatMap (· ++ ['\n']) ++ ("COMMIT\n".toList ++ rest))).2 =
      (completeLines '\n' rest).2 := by
  induction lines generalizing written with
  | nil =>
    have hcommit : "COMMIT\n".toList ++ rest = "COMMIT".toList ++ '\n' :: rest := rfl
    rw [List.flatMap_nil, List.nil_append, hcommit, completeLines_line (by decide),
      List.map_nil, List.append_nil]
    refine ⟨?_, rfl⟩
    rw [readLines, if_neg (by decide)]
    exact if_pos rfl
  | cons line lines ih =>
    obtain ⟨⟨hline, hhead⟩, hrest⟩ := List.forall_mem_cons.mp hlines
    obtain ⟨hread, hend⟩ := @ih (written ++ [lineReader.words line]) hrest
    rw [List.flatMap_cons, List.append_assoc, List.append_assoc, List.singleton_append,
      completeLines_line hline]
    refine ⟨?_, hend⟩
    have hskip : ¬ (line = [] ∨ line.head? = some '#') := by
      rw [hhead]
      rintro (rfl | hhash)
      · cases hhead
      · cases hhash
    have hcommit : line ≠ "COMMIT".toList := by
      rintro rfl
      cases hhead
    rw [readLines, if_neg hskip, if_neg hcommit, List.map_cons,
      List.append_cons written (lineReader.words line)]
    exact hread

theorem lineReader_documented : lineReader.Documented where
  bare := fun {word} h => by
    refine ⟨?_, fun rest => ?_⟩
    · show (Words.read false false [] word).map String.ofList = _
      rw [(read_bare h []).1]
      rfl
    · show (Words.read false false [] (word ++ ' ' :: rest)).map String.ofList = _
      rw [(read_bare h rest).2]
      rfl
  quoted := fun {word} h => by
    refine ⟨?_, fun rest => ?_⟩
    · show (Words.read false false [] ('"' :: (word ++ ['"']))).map String.ofList = _
      rw [read_quoted h]
      rfl
    · show (Words.read false false [] ('"' :: (word ++ '"' :: ' ' :: rest))).map String.ofList = _
      rw [read_quoted h, read_blank]
      rfl
  empty := rfl
  block := fun {table lines rest} htable hlines => by
    have hstar : '\n' ∉ '*' :: table := by
      rw [List.mem_cons, not_or]
      exact ⟨by decide, htable⟩
    obtain ⟨hread, hend⟩ := @readLines_block (String.ofList table) [] lines rest hlines
    have hlines' := completeLines_line hstar
      (lines.flatMap (· ++ ['\n']) ++ ("COMMIT\n".toList ++ rest))
    rw [List.cons_append] at hlines'
    simp only [lineReader, hlines', hend]
    by_cases hrest : (completeLines '\n' rest).2 = []
    · rw [if_pos hrest, if_pos hrest, readLines, if_neg (by simp), hread, List.nil_append]
      rfl
    · rw [if_neg hrest, if_neg hrest]
      rfl

/-- The text of the transaction that builds the forward rules in empty tables. -/
theorem payload_of_forward :
    (∃ rules, FlannelRules rules ∧
      readPayload lineReader
          (buildPayload (ipTablesCleanAndBuild (fun _ _ => some []) rules).2) =
        some (ipTablesCleanAndBuild (fun _ _ => some []) rules).2) ∧
    buildPayload (ipTablesCleanAndBuild (fun _ _ => some []) (forwardRules "10.244.0.0/16")).2 =
      "*filter\n-A FORWARD -m comment --comment \"flanneld forward\" -j FLANNEL-FWD\n" ++
      "-A FLANNEL-FWD -s 10.244.0.0/16 -m comment --comment \"flanneld forward\" -j ACCEPT\n" ++
      "-A FLANNEL-FWD -d 10.244.0.0/16 -m comment --comment \"flanneld forward\" -j ACCEPT\n" ++
      "COMMIT\n" := by
  refine ⟨⟨_, .forward ⟨⟨0x0af40000⟩, 16⟩, ?_⟩, by decide +kernel⟩
  exact (payload_is_transaction lineReader_documented _ (.forward ⟨⟨0x0af40000⟩, 16⟩)).1

end Flannel
