import Flannel.Backend.XfrmNetlink

/-!
# Reading netlink replies

What `parse_reply` makes of a buffer.  On messages that are encoded as they should be it
returns the first error that is one, or else the bodies of the ordinary messages.  On any other
buffer it still stays within the buffer: a length is used only after it was checked, and
where the alignment moves the offset past the end, the loop ends.  The loop leaves a whole
header unread only when it breaks off at a message that is too short, and it counts that one.
-/

namespace Flannel

open Bytes

namespace Xfrm

variable {order : ByteOrder} {buf : List UInt8} {r : Reply}

/-! ## Any buffer -/

/-- What a message can do, if it lies within the buffer. -/
theorem message_cases (order : ByteOrder) {mlen : Nat} (hmlen : 16 ≤ mlen)
    (hbuf : r.off + mlen ≤ buf.length) :
    (∃ e, r.message order buf mlen = some (.error e)) ∨
    ∃ r', r.message order buf mlen = some (.ok r') ∧
      ∀ body ∈ r'.results, body ∈ r.results ∨ body <:+: buf := by
  rw [Reply.message, slice_eq (by omega) (by omega)]
  simp only
  split_ifs with herror hcode hdone
  · rw [slice_eq (by omega) (by omega)]
    simp only
    split_ifs with hzero
    · exact .inl ⟨_, rfl⟩
    · exact .inr ⟨_, rfl, fun body hbody => .inl hbody⟩
  · exact .inr ⟨_, rfl, fun body hbody => .inl hbody⟩
  · exact .inr ⟨_, rfl, fun body hbody => .inl hbody⟩
  · rw [slice_eq (by omega) (by omega)]
    refine .inr ⟨_, rfl, fun body hbody => ?_⟩
    rcases List.mem_append.mp hbody with hbody | hbody
    · exact .inl hbody
    · rw [List.mem_singleton.mp hbody]
      exact .inr (isInfix_byteRange ..)

/-- What the loop can do on any buffer. -/
theorem loop_cases (order : ByteOrder) (hresults : ∀ body ∈ r.results, body <:+: buf) :
    (∃ e, r.loop order buf = some (.error e)) ∨
    ∃ r', r.loop order buf = some (.ok r') ∧ (∀ body ∈ r'.results, body <:+: buf) ∧
      (r'.off + 16 ≤ buf.length → 1 ≤ r'.shorts) := by
  fun_induction Reply.loop order buf r with
  | case1 r hoff hslice =>
    rw [slice_eq (by omega) (by omega)] at hslice
    cases hslice
  | case2 r hoff len hslice hshort =>
    exact .inr ⟨_, rfl, hresults, fun _ => Nat.succ_pos _⟩
  | case3 r hoff len hslice hlen hmessage =>
    obtain ⟨e, he⟩ | ⟨r', hr', -⟩ := message_cases order
      (show 16 ≤ ofNeBytes order len by omega) (show r.off + _ ≤ buf.length by omega)
    · rw [he] at hmessage
      cases hmessage
    · rw [hr'] at hmessage
      cases hmessage
  | case4 r hoff len hslice hlen e hmessage => exact .inl ⟨e, rfl⟩
  | case5 r hoff len hslice hlen r' hmessage ih =>
    refine ih fun body hbody => ?_
    obtain ⟨e, he⟩ | ⟨r'', hr'', hbodies⟩ := message_cases order
      (show 16 ≤ ofNeBytes order len by omega) (show r.off + _ ≤ buf.length by omega)
    · rw [he] at hmessage
      cases hmessage
    · rw [hr''] at hmessage
      cases hmessage
      exact (hbodies body hbody).elim (hresults body) id
  | case6 r hoff => exact .inr ⟨r, rfl, hresults, fun h => absurd h hoff⟩

/-! ## Well-formed replies -/

/-- The flags, the sequence number and the port of a message, which are not looked at. -/
structure NlHeader where
  flags : UInt16
  seq : UInt32
  port : UInt32
  deriving DecidableEq, Repr

/-- A message of the kernel: an ordinary one with its body, the end of a list, an
acknowledgement, or an error.  The last two carry the request behind their code. -/
inductive NlMessage where
  | ordinary (mtype : UInt16) (body : List UInt8)
  | done (body : List UInt8)
  | ack (request : List UInt8)
  | error (errno : Nat) (request : List UInt8)
  deriving DecidableEq, Repr

namespace NlMessage

/-- The type of a message. -/
def mtype : NlMessage → Nat
  | ordinary mtype _ => mtype.toNat
  | done _ => nlmsgDone
  | ack _ => nlmsgError
  | error _ _ => nlmsgError

/-- What stands behind the header; the code of an error is negative. -/
def payload (order : ByteOrder) : NlMessage → List UInt8
  | ordinary _ body => body
  | done body => body
  | ack request => neBytes order 4 0 ++ request
  | error errno request => neBytes order 4 (2 ^ 32 - errno) ++ request

/-- The header of a message, with its length. -/
def header (order : ByteOrder) (h : NlHeader) (m : NlMessage) : List UInt8 :=
  neBytes order 4 (16 + (m.payload order).length) ++ (neBytes order 2 m.mtype ++
    (neBytes order 2 h.flags.toNat ++ (neBytes order 4 h.seq.toNat ++
      neBytes order 4 h.port.toNat)))

/-- A message with its header and its padding. -/
def encode (order : ByteOrder) (h : NlHeader) (m : NlMessage) : List UInt8 :=
  m.header order h ++ (m.payload order ++
    zeros (Tlv.align4 (16 + (m.payload order).length) - (16 + (m.payload order).length)))

/-- An ordinary message has a type of its own, an error is one of the system's, and the length
of the message fits into its field. -/
def WellFormed (order : ByteOrder) (m : NlMessage) : Prop :=
  16 + (m.payload order).length < 2 ^ 32 ∧
    match m with
    | ordinary mtype _ => mtype.toNat ≠ nlmsgError ∧ mtype.toNat ≠ nlmsgDone
    | error errno _ => 1 ≤ errno ∧ errno ≤ 4095
    | _ => True

/-- The error that a message reports. -/
def errno? : NlMessage → Option Int
  | error errno _ => some errno
  | _ => none

/-- The body of an ordinary message. -/
def body? : NlMessage → Option (List UInt8)
  | ordinary _ body => some body
  | _ => none

/-- The message ends the exchange. -/
def ends : NlMessage → Bool
  | done _ => true
  | ack _ => true
  | _ => false

end NlMessage

/-- What the messages of a reply say. -/
def replyOf (ms : List NlMessage) : Except Int (List (List UInt8) × Bool × Nat) :=
  match ms.findSome? NlMessage.errno? with
  | some e => .error e
  | none => .ok (ms.filterMap NlMessage.body?, ms.any NlMessage.ends, 0)

section

variable {pre rest : List UInt8} {h : NlHeader} {m : NlMessage}

@[simp] theorem length_header (order : ByteOrder) (h : NlHeader) (m : NlMessage) :
    (m.header order h).length = 16 := by
  simp [NlMessage.header]

theorem length_encode (order : ByteOrder) (h : NlHeader) (m : NlMessage) :
    (m.encode order h).length = Tlv.align4 (16 + (m.payload order).length) := by
  have hle := Tlv.le_align4 (16 + (m.payload order).length)
  simp [NlMessage.encode, zeros]
  omega

theorem length_le_of_eq (hbuf : buf = pre ++ (m.encode order h ++ rest)) :
    pre.length + (16 + (m.payload order).length) ≤ buf.length := by
  have hle := Tlv.le_align4 (16 + (m.payload order).length)
  rw [hbuf, List.length_append, List.length_append, length_encode]
  omega

/-- A part of the header at the offset where a message stands. -/
theorem slice_header {start stop : Nat} (hbuf : buf = pre ++ (m.encode order h ++ rest))
    (hstart : start ≤ stop) (hstop : stop ≤ 16) :
    slice buf (pre.length + start) (pre.length + stop) =
      some (byteRange (m.header order h) start stop) := by
  have hle := length_le_of_eq hbuf
  rw [slice_eq (by omega) (by omega), hbuf, byteRange_append_add, NlMessage.encode, byteRange,
    byteRange, List.append_assoc, List.drop_append_of_le_length (by simp; omega),
    List.take_append_of_le_length (by simp; omega)]

/-- A beginning of the payload at the offset where a message stands. -/
theorem slice_payload {front tail : List UInt8} (hbuf : buf = pre ++ (m.encode order h ++ rest))
    (hpayload : m.payload order = front ++ tail) :
    slice buf (pre.length + 16) (pre.length + (16 + front.length)) = some front := by
  have hle := length_le_of_eq hbuf
  rw [hpayload, List.length_append] at hle
  have hfront : m.encode order h ++ rest = m.header order h ++ (front ++ (tail ++
      (zeros (Tlv.align4 (16 + (m.payload order).length) - (16 + (m.payload order).length)) ++
        rest))) := by
    rw [NlMessage.encode, hpayload]
    simp only [List.append_assoc]
  rw [slice_eq (by omega) (by omega), hbuf, byteRange_append_add,
    byteRange_of_eq _ hfront (length_header ..) rfl]

/-- The length of a message at the offset where it stands. -/
theorem slice_length (hm : m.WellFormed order) (hbuf : buf = pre ++ (m.encode order h ++ rest)) :
    ∃ len, slice buf pre.length (pre.length + 4) = some len ∧
      ofNeBytes order len = 16 + (m.payload order).length := by
  refine ⟨_, slice_header hbuf (Nat.zero_le 4) (by decide), ?_⟩
  rw [NlMessage.header, byteRange_append_left (length_neBytes ..)]
  exact ofNeBytes_neBytes hm.1

/-- The type of a message at the offset where it stands. -/
theorem slice_type (hbuf : buf = pre ++ (m.encode order h ++ rest)) :
    ∃ mtype, slice buf (pre.length + 4) (pre.length + 6) = some mtype ∧
      ofNeBytes order mtype = m.mtype := by
  have htype : m.mtype < 256 ^ 2 := by
    cases m with
    | ordinary mtype body => exact mtype.toNat_lt
    | done body => simp [NlMessage.mtype, nlmsgDone]
    | ack request => simp [NlMessage.mtype, nlmsgError]
    | error errno request => simp [NlMessage.mtype, nlmsgError]
  refine ⟨_, slice_header hbuf (by decide) (by decide), ?_⟩
  rw [NlMessage.header, byteRange_of_eq _ rfl (length_neBytes ..) (by rw [length_neBytes])]
  exact ofNeBytes_neBytes htype

/-- The loop at a well-formed message that reports an error. -/
theorem loop_of_message_error {e : Int} (hm : m.WellFormed order)
    (hbuf : buf = pre ++ (m.encode order h ++ rest)) (hoff : r.off = pre.length)
    (hmessage : r.message order buf (16 + (m.payload order).length) = some (.error e)) :
    r.loop order buf = some (.error e) := by
  have hle := length_le_of_eq hbuf
  obtain ⟨len, hslice, hlen⟩ := slice_length hm hbuf
  rw [← hoff] at hslice
  rw [Reply.loop, if_pos (by omega), hslice]
  simp only [hlen, hmessage]
  rw [if_neg (by omega)]

/-- The loop at a well-formed message that reports none. -/
theorem loop_of_message_ok {r' : Reply} (hm : m.WellFormed order)
    (hbuf : buf = pre ++ (m.encode order h ++ rest)) (hoff : r.off = pre.length)
    (hmessage : r.message order buf (16 + (m.payload order).length) = some (.ok r')) :
    r.loop order buf =
      Reply.loop order buf { r' with off := (pre ++ m.encode order h).length } := by
  have hle := length_le_of_eq hbuf
  obtain ⟨len, hslice, hlen⟩ := slice_length hm hbuf
  rw [← hoff] at hslice
  rw [Reply.loop, if_pos (by omega), hslice]
  simp only [hlen, hmessage]
  rw [if_neg (by omega), hoff, List.length_append, length_encode]

/-- What a message does to the variables of the loop. -/
def NlMessage.apply (r : Reply) : NlMessage → Except Int Reply
  | .ordinary _ body => .ok { r with results := r.results ++ [body] }
  | .done _ => .ok { r with done := true }
  | .ack _ => .ok { r with done := true }
  | .error errno _ => .error errno

/-- The code of an error is read as its number. -/
theorem toInt_neg_code {errno : Nat} (hle : errno ≤ 4095) :
    (-(BitVec.ofNat 32 (2 ^ 32 - errno))).toInt = errno := by
  have hcode : BitVec.ofNat 32 (2 ^ 32 - errno) = -(BitVec.ofNat 32 errno) := by
    apply BitVec.eq_of_toNat_eq
    simp only [BitVec.toNat_neg, BitVec.toNat_ofNat]
    omega
  have hnat : (BitVec.ofNat 32 errno).toNat = errno := by
    rw [BitVec.toNat_ofNat]
    omega
  rw [hcode, BitVec.neg_neg, BitVec.toInt_eq_toNat_of_lt (by omega), hnat]

/-- The `match` at a well-formed message. -/
theorem message_encode (hm : m.WellFormed order) (hbuf : buf = pre ++ (m.encode order h ++ rest))
    (hoff : r.off = pre.length) :
    r.message order buf (16 + (m.payload order).length) = some (m.apply r) := by
  obtain ⟨mtype, hslice, htype⟩ := slice_type hbuf
  rw [← hoff] at hslice
  rw [Reply.message, hslice]
  simp only [htype]
  cases m with
  | ordinary t body =>
    have hbody := slice_payload hbuf (List.append_nil _).symm
    rw [← hoff] at hbody
    rw [NlMessage.mtype, if_neg hm.2.1, if_neg hm.2.2, hbody]
    rfl
  | done body =>
    have hne : ¬ nlmsgDone = nlmsgError := by decide
    rw [NlMessage.mtype, if_neg hne, if_pos rfl, NlMessage.apply]
  | ack request =>
    have hcode := slice_payload hbuf rfl
    rw [← hoff, length_neBytes] at hcode
    have hlen : 20 ≤ 16 + ((NlMessage.ack request).payload order).length := by
      rw [NlMessage.payload, List.length_append, length_neBytes]
      omega
    have hvalue : ofNeBytes order (neBytes order 4 0) = 0 := ofNeBytes_neBytes (by decide)
    rw [NlMessage.mtype, if_pos rfl, if_pos hlen, hcode]
    simp only [hvalue]
    rw [if_neg (fun hzero => hzero rfl), NlMessage.apply]
  | error errno request =>
    have hcode := slice_payload hbuf rfl
    rw [← hoff, length_neBytes] at hcode
    have hlen : 20 ≤ 16 + ((NlMessage.error errno request).payload order).length := by
      rw [NlMessage.payload, List.length_append, length_neBytes]
      omega
    obtain ⟨hone, hmax⟩ := hm.2
    have hvalue : ofNeBytes order (neBytes order 4 (2 ^ 32 - errno)) = 2 ^ 32 - errno :=
      ofNeBytes_neBytes (by omega)
    rw [NlMessage.mtype, if_pos rfl, if_pos hlen, hcode]
    simp only [hvalue]
    rw [if_pos (by omega), toInt_neg_code hmax, NlMessage.apply]

/-- What the messages of a reply add to the variables of the loop. -/
def replyFrom (r : Reply) (ms : List NlMessage) : Except Int (List (List UInt8) × Bool × Nat) :=
  match ms.findSome? NlMessage.errno? with
  | some e => .error e
  | none =>
    .ok (r.results ++ ms.filterMap NlMessage.body?, r.done || ms.any NlMessage.ends, r.shorts)

theorem replyFrom_cons_error {e : Int} (ms : List NlMessage) (hm : m.apply r = .error e) :
    replyFrom r (m :: ms) = .error e := by
  cases m with
  | error errno request =>
    cases hm
    rfl
  | ordinary mtype body => cases hm
  | done body => cases hm
  | ack request => cases hm

theorem replyFrom_cons_ok {r' : Reply} (ms : List NlMessage) (off : Nat) (hm : m.apply r = .ok r') :
    replyFrom r (m :: ms) = replyFrom { r' with off := off } ms := by
  cases m with
  | error errno request => cases hm
  | ordinary mtype body =>
    cases hm
    simp [replyFrom, List.findSome?_cons, NlMessage.errno?, NlMessage.body?, NlMessage.ends]
  | done request | ack request =>
    cases hm
    simp [replyFrom, List.findSome?_cons, List.filterMap_cons, NlMessage.errno?, NlMessage.body?,
      NlMessage.ends]

/-- The loop on the messages that are still to be read. -/
theorem loop_messages {ps : List (NlHeader × NlMessage)} (hps : ∀ p ∈ ps, p.2.WellFormed order)
    (hbuf : buf = pre ++ ps.flatMap fun p => p.2.encode order p.1) (hoff : r.off = pre.length) :
    (r.loop order buf).map (Except.map fun r => (r.results, r.done, r.shorts)) =
      some (replyFrom r (ps.map Prod.snd)) := by
  -- the messages that are read stand in front, and the variables hold what they said
  induction ps generalizing pre r with
  | nil =>
    have hend : buf.length = pre.length := by simp [hbuf]
    rw [Reply.loop, if_neg (by omega)]
    simp [replyFrom, Except.map]
  | cons p ps ih =>
    obtain ⟨h, m⟩ := p
    have hm : m.WellFormed order := hps _ (List.mem_cons_self ..)
    rw [List.flatMap_cons] at hbuf
    have hmessage := message_encode hm hbuf hoff
    rw [List.map_cons]
    cases happly : m.apply r with
    | error e =>
      rw [happly] at hmessage
      rw [loop_of_message_error hm hbuf hoff hmessage, replyFrom_cons_error _ happly]
      rfl
    | ok r' =>
      rw [happly] at hmessage
      rw [loop_of_message_ok hm hbuf hoff hmessage, replyFrom_cons_ok _ _ happly]
      exact ih (fun p hp => hps p (List.mem_cons_of_mem _ hp))
        (by rw [hbuf, List.append_assoc]) rfl

end

/-- On the messages of a well-formed reply, `parse_reply` returns what they say.  On any buffer
it returns, with bodies that are parts of the buffer, and with a short message if a whole header
is left unread. -/
theorem parseReply_spec (order : ByteOrder) :
    (∀ ps : List (NlHeader × NlMessage), (∀ p ∈ ps, p.2.WellFormed order) →
      parseReply order (ps.flatMap fun p => p.2.encode order p.1) =
        some (replyOf (ps.map Prod.snd))) ∧
    ∀ buf : List UInt8,
      (∃ e, parseReply order buf = some (.error e)) ∨
      ∃ reply : Reply, Reply.loop order buf {} = some (.ok reply) ∧
        parseReply order buf = some (.ok (reply.results, reply.done, reply.shorts)) ∧
        (∀ body ∈ reply.results, body <:+: buf) ∧
        (16 ≤ buf.length - reply.off → 1 ≤ reply.shorts) := by
  constructor
  · intro ps hps
    exact loop_messages hps (List.nil_append _).symm rfl
  · intro buf
    have hnone : ∀ body ∈ ({} : Reply).results, body <:+: buf :=
      fun body hbody => absurd hbody List.not_mem_nil
    obtain ⟨e, he⟩ | ⟨reply, hreply, hbodies, hshorts⟩ := loop_cases order hnone
    · refine .inl ⟨e, ?_⟩
      rw [parseReply, he]
      rfl
    · refine .inr ⟨reply, hreply, ?_, hbodies, fun hleft => hshorts (by omega)⟩
      rw [parseReply, hreply]
      rfl

/-- A list of two policies with its end, and an error behind an answer. -/
theorem parseReply_spec_replies :
    parseReply .little ([(⟨2, 1, 7⟩, .ordinary 20 [1, 2, 3]), (⟨2, 1, 7⟩, .ordinary 20 [4]),
      (⟨2, 1, 7⟩, .done [0, 0, 0, 0])].flatMap fun p : NlHeader × NlMessage =>
        p.2.encode .little p.1) = some (.ok ([[1, 2, 3], [4]], true, 0)) ∧
    parseReply .big ([(⟨0, 1, 7⟩, .ordinary 20 [1, 2, 3]), (⟨0, 1, 7⟩, .error 17 [9, 9])].flatMap
      fun p : NlHeader × NlMessage => p.2.encode .big p.1) = some (.error 17) := by
  constructor
  · refine (parseReply_spec .little).1 _ fun p hp => ?_
    simp only [List.mem_cons, List.not_mem_nil, or_false] at hp
    rcases hp with rfl | rfl | rfl
    · exact ⟨by decide, by decide, by decide⟩
    · exact ⟨by decide, by decide, by decide⟩
    · exact ⟨by decide, trivial⟩
  · refine (parseReply_spec .big).1 _ fun p hp => ?_
    simp only [List.mem_cons, List.not_mem_nil, or_false] at hp
    rcases hp with rfl | rfl
    · exact ⟨by decide, by decide, by decide⟩
    · exact ⟨by decide, by decide, by decide⟩

end Xfrm

end Flannel
