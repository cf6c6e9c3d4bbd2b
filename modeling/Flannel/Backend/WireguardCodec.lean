import Flannel.Backend.WireguardNetlink
import Flannel.Lib.Results

/-!
# Reading back WireGuard peers

What `configure_device` writes for its peers is read by `parse_peer` and `parse_allowed_ip`.
Each list of attributes is brought into the form of a list of types and payloads, which the
attribute parser gives back; then the loops of the readers are followed over that list.
-/

namespace Flannel

open Bytes Results Text

/-! ## Addresses -/

theorem IP4.ofOctets_octets (ip : IP4) : IP4.ofOctets ip.octets = ip := by
  rw [IP4.ofOctets, IP4.octets, ofBeBytes_beBytes ip.val.isLt, BitVec.ofNat_toNat,
    BitVec.setWidth_eq]

@[simp] theorem IP4.length_octets (ip : IP4) : ip.octets.length = 4 := length_beBytes 4 _

@[simp] theorem IP6.length_octets (ip : IP6) : ip.octets.length = 16 := length_beBytes 16 _

theorem IP6.ofOctets_octets (ip : IP6) : IP6.ofOctets ip.octets = ip := by
  rw [IP6.ofOctets, IP6.octets, ofBeBytes_beBytes ip.val.isLt, BitVec.ofNat_toNat,
    BitVec.setWidth_eq]

namespace Genl

variable {order : ByteOrder}

theorem u16Of_append (order : ByteOrder) (v : UInt16) (rest : List UInt8) :
    u16Of order (neBytes order 2 v.toNat ++ rest) = some v := by
  have hlen : 2 ≤ (neBytes order 2 v.toNat ++ rest).length := by
    rw [List.length_append, length_neBytes]
    omega
  have hrange : byteRange (neBytes order 2 v.toNat ++ rest) 0 2 = neBytes order 2 v.toNat :=
    byteRange_of_eq [] rfl rfl (by rw [length_neBytes])
  rw [u16Of, if_pos hlen, hrange, ofNeBytes_neBytes v.toNat_lt, UInt16.ofNat_toNat]

theorem u16Of_neBytes (order : ByteOrder) (v : UInt16) :
    u16Of order (neBytes order 2 v.toNat) = some v := by
  have h := u16Of_append order v []
  rwa [List.append_nil] at h

/-- The address and the port of an endpoint are read back, its scope is not. -/
theorem parseEndpoint_sockaddrBytes (ep : SocketAddr) :
    parseEndpoint order (sockaddrBytes order ep) = some ⟨ep.ip, ep.port, 0⟩ := by
  obtain ⟨ip, port, scope⟩ := ep
  cases ip with
  | v4 ip =>
    have hbytes : sockaddrBytes order ⟨.v4 ip, port, scope⟩ =
        neBytes order 2 afInet.toNat ++ (beBytes 2 port.toNat ++ (ip.octets ++
          List.replicate 8 0)) := by
      simp only [sockaddrBytes, List.append_assoc]
    have hlen : (sockaddrBytes order ⟨.v4 ip, port, scope⟩).length = 16 := by
      simp [hbytes]
    have hport : byteRange (sockaddrBytes order ⟨.v4 ip, port, scope⟩) 2 4 =
        beBytes 2 port.toNat :=
      byteRange_of_eq _ hbytes (length_neBytes ..) (by rw [length_beBytes])
    have hip : byteRange (sockaddrBytes order ⟨.v4 ip, port, scope⟩) 4 8 = ip.octets := by
      rw [← List.append_assoc] at hbytes
      exact byteRange_of_eq _ hbytes (by simp) (by simp)
    have hfamily : u16Of order (sockaddrBytes order ⟨.v4 ip, port, scope⟩) = some afInet := by
      rw [hbytes, u16Of_append]
    rw [parseEndpoint, hfamily]
    simp only
    rw [if_pos (by omega), endpointIp, if_pos rfl, if_pos (by omega), hport, hip,
      IP4.ofOctets_octets, ofBeBytes_beBytes port.toNat_lt, UInt16.ofNat_toNat]
    rfl
  | v6 ip =>
    have hbytes : sockaddrBytes order ⟨.v6 ip, port, scope⟩ =
        neBytes order 2 afInet6.toNat ++ (beBytes 2 port.toNat ++ (neBytes order 4 0 ++
          (ip.octets ++ neBytes order 4 scope))) := by
      simp only [sockaddrBytes, List.append_assoc]
    have hlen : (sockaddrBytes order ⟨.v6 ip, port, scope⟩).length = 28 := by
      simp [hbytes]
    have hport : byteRange (sockaddrBytes order ⟨.v6 ip, port, scope⟩) 2 4 =
        beBytes 2 port.toNat :=
      byteRange_of_eq _ hbytes (length_neBytes ..) (by rw [length_beBytes])
    have hip : byteRange (sockaddrBytes order ⟨.v6 ip, port, scope⟩) 8 24 = ip.octets := by
      rw [← List.append_assoc, ← List.append_assoc] at hbytes
      exact byteRange_of_eq _ hbytes (by simp) (by simp)
    have hfamily : u16Of order (sockaddrBytes order ⟨.v6 ip, port, scope⟩) = some afInet6 := by
      rw [hbytes, u16Of_append]
    rw [parseEndpoint, hfamily]
    simp only
    rw [if_pos (by omega), endpointIp, if_neg (by decide), if_pos rfl, if_pos (by omega), hport,
      hip, IP6.ofOctets_octets, ofBeBytes_beBytes port.toNat_lt, UInt16.ofNat_toNat]
    rfl

/-! ## Allowed addresses -/

/-- The types and the payloads of `allowed_ip_attrs`. -/
def allowedIpFields (order : ByteOrder) (ip : WgAllowedIp) : List (UInt16 × List UInt8) :=
  [(wgallowedipAFamily, neBytes order 2 (familyAddr ip.ip).1.toNat),
    (wgallowedipAIpaddr, (familyAddr ip.ip).2), (wgallowedipACidrMask, [ip.cidr])]

theorem allowedIpAttrs_eq (ip : WgAllowedIp) :
    (allowedIpAttrs order ip).flatten =
      (allowedIpFields order ip).flatMap fun a => Tlv.encode order a.1 a.2 := rfl

theorem length_familyAddr (ip : IpAddr) : (familyAddr ip).2.length ≤ 16 := by
  cases ip with
  | v4 ip => simp [familyAddr]
  | v6 ip => simp [familyAddr]

theorem parseAllowedIp_allowedIpAttrs (ip : WgAllowedIp) :
    parseAllowedIp order (allowedIpAttrs order ip).flatten = some (some ip) := by
  have hlen := length_familyAddr ip.ip
  have hfits : ∀ a ∈ allowedIpFields order ip, 4 + a.2.length < 65536 := by
    simp [allowedIpFields]
    omega
  have hmask : ((allowedIpFields order ip).map fun a => (a.1 &&& 0x7fff, a.2)) =
      allowedIpFields order ip := by
    simp only [allowedIpFields, List.map_cons, List.map_nil]
    rfl
  have hfamily : u16Of order (neBytes order 2 (familyAddr ip.ip).1.toNat) =
      some (familyAddr ip.ip).1 := u16Of_neBytes order _
  have hfields : (allowedIpFields order ip).foldl (allowedIpField order) {} =
      ⟨(familyAddr ip.ip).1, some (familyAddr ip.ip).2, ip.cidr⟩ := by
    simp [allowedIpFields, allowedIpField, wgallowedipAFamily, wgallowedipAIpaddr,
      wgallowedipACidrMask, hfamily]
  rw [parseAllowedIp, allowedIpAttrs_eq, parseNlas, Tlv.parse_encoded hfits, hmask,
    Option.map_some, hfields]
  obtain ⟨ip, cidr⟩ := ip
  cases ip with
  | v4 ip =>
    have hoctets : byteRange ip.octets 0 4 = ip.octets :=
      byteRange_of_eq [] (List.append_nil _).symm rfl (by simp)
    simp [AllowedIpFields.ip, familyAddr, hoctets, IP4.ofOctets_octets]
  | v6 ip =>
    have hoctets : byteRange ip.octets 0 16 = ip.octets :=
      byteRange_of_eq [] (List.append_nil _).symm rfl (by simp)
    simp [AllowedIpFields.ip, familyAddr, hoctets, IP6.ofOctets_octets, afInet,
      afInet6]

/-! ## Numbered entries -/

/-- The types and the payloads of numbered entries. -/
def numberedFields {α : Type} (attrs : α → List (List UInt8)) (entries : List α) :
    List (UInt16 × List UInt8) :=
  entries.zipIdx.map fun (entry, i) => (UInt16.ofNat (i + 1) ||| 0x8000, (attrs entry).flatten)

theorem numbered_eq {α : Type} (attrs : α → List (List UInt8)) (entries : List α) :
    (numbered order attrs entries).flatten =
      (numberedFields attrs entries).flatMap fun a => Tlv.encode order a.1 a.2 := by
  rw [numbered, numberedFields, List.flatMap_map]
  rfl

/-- **Numbered entries are read back in their order.** -/
theorem mapM_parseNlas_numbered {α β : Type} {attrs : α → List (List UInt8)} {entries : List α}
    {read : List UInt8 → Option β} {back : α → β}
    (hfits : ∀ entry ∈ entries, 4 + (attrs entry).flatten.length < 65536)
    (hread : ∀ entry ∈ entries, read (attrs entry).flatten = some (back entry)) :
    ((parseNlas order (numbered order attrs entries).flatten) >>= fun nlas =>
      nlas.mapM fun a => read a.2) = some (entries.map back) := by
  have hlen : ∀ a ∈ numberedFields attrs entries, 4 + a.2.length < 65536 := by
    intro a ha
    obtain ⟨⟨entry, i⟩, hmem, rfl⟩ := List.mem_map.mp ha
    exact hfits entry (List.fst_mem_of_mem_zipIdx hmem)
  have hpayloads : (numberedFields attrs entries).map Prod.snd =
      entries.map fun entry => (attrs entry).flatten := by
    conv_rhs => rw [← List.zipIdx_map_fst 0 entries]
    rw [numberedFields, List.map_map, List.map_map]
    rfl
  have hsnd : ((numberedFields attrs entries).map fun a => (a.1 &&& 0x7fff, a.2)).mapM
      (fun a => read a.2) = ((numberedFields attrs entries).map Prod.snd).mapM read := by
    rw [List.mapM_map, List.mapM_map]
    rfl
  rw [numbered_eq, parseNlas, Tlv.parse_encoded hlen, Option.bind_eq_bind, Option.bind_some, hsnd,
    hpayloads, List.mapM_map]
  exact mapM_eq_some hread

/-- An entry is no longer than the list that it stands in. -/
theorem length_entry_le {α : Type} (order : ByteOrder) (attrs : α → List (List UInt8))
    {entries : List α} {entry : α} (h : entry ∈ entries) :
    4 + (attrs entry).flatten.length ≤ (numbered order attrs entries).flatten.length := by
  obtain ⟨i, hi⟩ := List.mem_iff_getElem?.mp h
  have hmem : nlaNest order (UInt16.ofNat (i + 1)) (attrs entry) ∈ numbered order attrs entries :=
    List.mem_map.mpr ⟨(entry, i), List.mk_mem_zipIdx_iff_getElem?.mpr hi, rfl⟩
  have hle := (List.sublist_flatten_of_mem hmem).length_le
  have halign := Tlv.le_align4 (4 + (attrs entry).flatten.length)
  rw [nlaNest, nla, Tlv.length_encode] at hle
  omega

/-! ## Peers -/

/-- What is read back of a peer. -/
def peerInfo (p : WgPeerConfig Key) : WgPeerInfo where
  publicKey := p.publicKey.1
  endpoint := p.endpoint.map fun ep => ⟨ep.ip, ep.port, 0⟩
  persistentKeepaliveInterval := p.persistentKeepaliveInterval.getD 0
  allowedIps := p.allowedIps

/-- The types and the payloads of `peer_attrs`. -/
def peerFields (order : ByteOrder) (p : WgPeerConfig Key) : List (UInt16 × List UInt8) :=
  [(wgpeerAPublicKey, p.publicKey.1)] ++
    ((p.presharedKey.map fun psk => (wgpeerAPresharedKey, psk.1)).toList ++
    ((if p.flags ≠ 0 then [(wgpeerAFlags, neBytes order 4 p.flags)] else []) ++
    ((p.endpoint.map fun ep => (wgpeerAEndpoint, sockaddrBytes order ep)).toList ++
    ((p.persistentKeepaliveInterval.map fun k =>
      (wgpeerAPersistentKeepaliveInterval, neBytes order 2 k.toNat)).toList ++
    (if p.allowedIps ≠ [] then
      [(wgpeerAAllowedips ||| 0x8000,
        (numbered order (allowedIpAttrs order) p.allowedIps).flatten)]
    else [])))))

theorem peerAttrs_eq (p : WgPeerConfig Key) :
    (peerAttrs order p).flatten =
      (peerFields order p).flatMap fun a => Tlv.encode order a.1 a.2 := by
  simp only [peerAttrs, peerFields, List.append_assoc, List.flatten_append, List.flatMap_append]
  refine congrArg₂ _ rfl (congrArg₂ _ ?_ (congrArg₂ _ ?_ (congrArg₂ _ ?_ (congrArg₂ _ ?_ ?_))))
  · cases p.presharedKey <;> rfl
  · split <;> rfl
  · cases p.endpoint <;> rfl
  · cases p.persistentKeepaliveInterval <;> rfl
  · split <;> rfl

/-- The list of the allowed addresses of a peer fits into its length field; the other
attributes of a peer always do. -/
def PeerFits (order : ByteOrder) (p : WgPeerConfig Key) : Prop :=
  4 + (numbered order (allowedIpAttrs order) p.allowedIps).flatten.length < 65536

theorem length_allowedIpAttrs (ip : WgAllowedIp) :
    4 + (allowedIpAttrs order ip).flatten.length < 65536 := by
  have hlen := length_familyAddr ip.ip
  simp [allowedIpAttrs, nlaU16, nlaU8, nla, Tlv.length_encode, Tlv.align4]
  omega

theorem length_sockaddrBytes (order : ByteOrder) (ep : SocketAddr) :
    (sockaddrBytes order ep).length ≤ 28 := by
  obtain ⟨ip, port, scope⟩ := ep
  cases ip with
  | v4 ip => simp [sockaddrBytes]
  | v6 ip => simp [sockaddrBytes]

theorem length_peerFields {p : WgPeerConfig Key} (hp : PeerFits order p) :
    ∀ a ∈ peerFields order p, 4 + a.2.length < 65536 := by
  have hkey := p.publicKey.2
  simp only [peerFields, List.forall_mem_append]
  refine ⟨?_, ?_, ?_, ?_, ?_, ?_⟩
  · simp [hkey]
  · cases p.presharedKey with
    | none => simp
    | some psk => simp [psk.2]
  · split <;> simp
  · cases p.endpoint with
    | none => simp
    | some ep =>
      have hlen := length_sockaddrBytes order ep
      simp
      omega
  · cases p.persistentKeepaliveInterval <;> simp
  · split
    · exact List.forall_mem_singleton.mpr hp
    · exact fun a ha => absurd ha List.not_mem_nil

/-! The loop of `parse_peer`, on each attribute that `peer_attrs` writes. -/

theorem peerField_publicKey (peer : WgPeerInfo) (k : Key) :
    peerField order peer (wgpeerAPublicKey, k.1) = some { peer with publicKey := k.1 } := by
  have hrange : byteRange k.1 0 32 = k.1 :=
    byteRange_of_eq [] (List.append_nil _).symm rfl (by rw [k.2])
  rw [peerField, if_pos ⟨rfl, Nat.le_of_eq k.2.symm⟩, hrange]

theorem peerField_presharedKey (peer : WgPeerInfo) (v : List UInt8) :
    peerField order peer (wgpeerAPresharedKey, v) = some peer := by
  simp [peerField, wgpeerAPresharedKey, wgpeerAPublicKey, wgpeerAEndpoint,
    wgpeerAPersistentKeepaliveInterval, wgpeerAAllowedips]

theorem peerField_flags (peer : WgPeerInfo) (v : List UInt8) :
    peerField order peer (wgpeerAFlags, v) = some peer := by
  simp [peerField, wgpeerAFlags, wgpeerAPublicKey, wgpeerAEndpoint,
    wgpeerAPersistentKeepaliveInterval, wgpeerAAllowedips]

theorem peerField_endpoint (peer : WgPeerInfo) (ep : SocketAddr) :
    peerField order peer (wgpeerAEndpoint, sockaddrBytes order ep) =
      some { peer with endpoint := some ⟨ep.ip, ep.port, 0⟩ } := by
  simp [peerField, wgpeerAEndpoint, wgpeerAPublicKey, parseEndpoint_sockaddrBytes]

theorem peerField_keepalive (peer : WgPeerInfo) (k : UInt16) :
    peerField order peer (wgpeerAPersistentKeepaliveInterval, neBytes order 2 k.toNat) =
      some { peer with persistentKeepaliveInterval := k } := by
  simp [peerField, wgpeerAPersistentKeepaliveInterval, wgpeerAEndpoint, wgpeerAPublicKey,
    u16Of_neBytes]

theorem peerField_allowedIps (peer : WgPeerInfo) (ips : List WgAllowedIp) :
    peerField order peer
        (wgpeerAAllowedips, (numbered order (allowedIpAttrs order) ips).flatten) =
      some { peer with allowedIps := peer.allowedIps ++ ips } := by
  have hread : (parseNlas order (numbered order (allowedIpAttrs order) ips).flatten >>= fun nlas =>
      nlas.mapM fun av => parseAllowedIp order av.2) = some (ips.map some) :=
    mapM_parseNlas_numbered (fun ip _ => length_allowedIpAttrs ip)
      fun ip _ => parseAllowedIp_allowedIpAttrs ip
  obtain ⟨nlas, hnlas, hips⟩ := Option.bind_eq_some_iff.mp hread
  have hreduce : (ips.map some).reduceOption = ips := by
    show (ips.map some).filterMap id = ips
    simp
  simp [peerField, wgpeerAAllowedips, wgpeerAPersistentKeepaliveInterval, wgpeerAEndpoint,
    wgpeerAPublicKey, hnlas, hips, hreduce]

/-- The loop over an attribute that is written only if there is something to write. -/
theorem foldlM_optional {β : Type} {t : UInt16} (ht : t &&& 0x7fff = t)
    {payload : β → List UInt8} {peer : WgPeerInfo} {next : β → WgPeerInfo}
    (hstep : ∀ x, peerField order peer (t, payload x) = some (next x)) (o : Option β) :
    ((o.map fun x => (t, payload x)).toList.map fun a => (a.1 &&& 0x7fff, a.2)).foldlM
      (peerField order) peer = some ((o.map next).getD peer) := by
  cases o with
  | none => rfl
  | some x => simp [ht, hstep]

/-- The loop of `parse_peer` over the attributes, one part of `peer_attrs` after the other. -/
theorem foldlM_peerFields (p : WgPeerConfig Key) :
    ((peerFields order p).map fun a => (a.1 &&& 0x7fff, a.2)).foldlM (peerField order) {} =
      some (peerInfo p) := by
  obtain ⟨key, psk, flags, endpoint, keepalive, ips⟩ := p
  have hkey : wgpeerAPublicKey &&& 0x7fff = wgpeerAPublicKey := by decide
  have hpsk : ∀ peer, ((psk.map fun psk => (wgpeerAPresharedKey, psk.1)).toList.map
      fun a => (a.1 &&& 0x7fff, a.2)).foldlM (peerField order) peer = some peer := by
    intro peer
    rw [foldlM_optional (by decide) fun psk : Key => peerField_presharedKey peer psk.1]
    cases psk with
    | none => rfl
    | some psk => rfl
  have hflags : ∀ peer, ((if flags ≠ 0 then [(wgpeerAFlags, neBytes order 4 flags)]
      else []).map fun a => (a.1 &&& 0x7fff, a.2)).foldlM (peerField order) peer = some peer := by
    intro peer
    have hmask : wgpeerAFlags &&& 0x7fff = wgpeerAFlags := by decide
    split
    · simp [hmask, peerField_flags]
    · rfl
  have hendpoint : ((endpoint.map fun ep => (wgpeerAEndpoint, sockaddrBytes order ep)).toList.map
      fun a => (a.1 &&& 0x7fff, a.2)).foldlM (peerField order) { publicKey := key.1 } =
      some { publicKey := key.1, endpoint := endpoint.map fun ep => ⟨ep.ip, ep.port, 0⟩ } := by
    rw [foldlM_optional (by decide) fun ep => peerField_endpoint _ ep]
    cases endpoint with
    | none => rfl
    | some ep => rfl
  have hkeepalive : ∀ peer : WgPeerInfo, peer.persistentKeepaliveInterval = 0 →
      ((keepalive.map fun k => (wgpeerAPersistentKeepaliveInterval,
        neBytes order 2 k.toNat)).toList.map fun a => (a.1 &&& 0x7fff, a.2)).foldlM
          (peerField order) peer =
        some { peer with persistentKeepaliveInterval := keepalive.getD 0 } := by
    intro peer hpeer
    rw [foldlM_optional (by decide) fun k => peerField_keepalive peer k]
    cases keepalive with
    | none => simp [← hpeer]
    | some k => rfl
  have hips : ∀ peer : WgPeerInfo, peer.allowedIps = [] →
      ((if ips ≠ [] then [(wgpeerAAllowedips ||| 0x8000,
        (numbered order (allowedIpAttrs order) ips).flatten)] else []).map
          fun a => (a.1 &&& 0x7fff, a.2)).foldlM (peerField order) peer =
        some { peer with allowedIps := ips } := by
    intro peer hpeer
    have hmask : (wgpeerAAllowedips ||| 0x8000) &&& 0x7fff = wgpeerAAllowedips := by decide
    split
    · simp [hmask, peerField_allowedIps, hpeer]
    · rename_i hempty
      simp [not_not.mp hempty, ← hpeer]
  simp only [peerFields, List.map_append, List.foldlM_append, List.map_cons, List.map_nil,
    List.foldlM_cons, List.foldlM_nil, hkey, peerField_publicKey, Option.bind_eq_bind,
    Option.bind_some, Option.pure_def, hpsk, hflags, hendpoint]
  rw [hkeepalive _ rfl, Option.bind_some, hips _ rfl, peerInfo]

/-- What `parse_peer` makes of a peer that fits. -/
theorem parsePeer_peerAttrs {p : WgPeerConfig Key} (hp : PeerFits order p) :
    parsePeer order (peerAttrs order p).flatten = some (peerInfo p) := by
  rw [parsePeer, peerAttrs_eq, parseNlas, Tlv.parse_encoded (length_peerFields hp)]
  exact foldlM_peerFields p

/-- A peer that fits into a nested attribute fits itself. -/
theorem peerFits_of_length {p : WgPeerConfig Key}
    (hp : 4 + (peerAttrs order p).flatten.length < 65536) : PeerFits order p := by
  rw [PeerFits]
  by_cases hips : p.allowedIps = []
  · rw [hips]
    exact Nat.lt_of_lt_of_le (Nat.lt_succ_self 4) (by decide)
  · have hmem : nlaNest order wgpeerAAllowedips
        (numbered order (allowedIpAttrs order) p.allowedIps) ∈ peerAttrs order p := by
      rw [peerAttrs, if_pos hips]
      exact List.mem_append_right _ List.mem_cons_self
    have hle := (List.sublist_flatten_of_mem hmem).length_le
    have halign := Tlv.le_align4
      (4 + (numbered order (allowedIpAttrs order) p.allowedIps).flatten.length)
    rw [nlaNest, nla, Tlv.length_encode] at hle
    omega

theorem mapM_parsePeer_numbered {peers : List (WgPeerConfig Key)}
    (hpeers : ∀ p ∈ peers, 4 + (peerAttrs order p).flatten.length < 65536) :
    (parseNlas order (numbered order (peerAttrs order) peers).flatten >>= fun nlas =>
      nlas.mapM fun pv => parsePeer order pv.2) = some (peers.map peerInfo) :=
  mapM_parseNlas_numbered hpeers
    fun p hp => parsePeer_peerAttrs (peerFits_of_length (hpeers p hp))

/-- **Peers are read back as they were written.**  The public key, the address and the port of
the endpoint, the keepalive interval and the allowed addresses of a peer come back, and peers
in numbered entries come back in their order. -/
theorem peers_read_back (order : ByteOrder) :
    (∀ p : WgPeerConfig Key, PeerFits order p →
      parsePeer order (peerAttrs order p).flatten = some (peerInfo p)) ∧
    (∀ peers : List (WgPeerConfig Key),
      (∀ p ∈ peers, 4 + (peerAttrs order p).flatten.length < 65536) →
        (parseNlas order (numbered order (peerAttrs order) peers).flatten >>= fun nlas =>
          nlas.mapM fun pv => parsePeer order pv.2) = some (peers.map peerInfo)) :=
  ⟨fun _ hp => parsePeer_peerAttrs hp, fun _ hpeers => mapM_parsePeer_numbered hpeers⟩

/-- A peer with addresses of both families, and one without anything but its key. -/
def twoPeers : List (WgPeerConfig Key) :=
  [{ publicKey := ⟨List.replicate 32 7, rfl⟩
     presharedKey := some ⟨List.replicate 32 9, rfl⟩
     flags := 2
     endpoint := some ⟨.v6 ⟨1⟩, 51820, 3⟩
     persistentKeepaliveInterval := some 25
     allowedIps := [⟨.v6 ⟨0⟩, 0⟩, ⟨.v4 ⟨0x0a000000⟩, 8⟩] },
    { publicKey := ⟨List.replicate 32 1, rfl⟩
      presharedKey := none
      flags := 0
      endpoint := none
      persistentKeepaliveInterval := none
      allowedIps := [] }]

theorem peers_read_back_two :
    (∃ p ∈ twoPeers, PeerFits .big p ∧
      parsePeer .big (peerAttrs .big p).flatten = some (peerInfo p)) ∧
    (parseNlas .little (numbered .little (peerAttrs .little) twoPeers).flatten >>= fun nlas =>
      nlas.mapM fun pv => parsePeer .little pv.2) = some (twoPeers.map peerInfo) := by
  refine ⟨⟨_, List.mem_cons_self, ?_⟩, (peers_read_back .little).2 twoPeers ?_⟩
  · have hfits : PeerFits .big (twoPeers.get ⟨0, by decide⟩) := by
      unfold PeerFits
      decide +kernel
    exact ⟨hfits, (peers_read_back .big).1 _ hfits⟩
  · decide +kernel

/-! ## Devices -/

/-- The types and the payloads of the attributes that `configure_device` sends. -/
def deviceFields (order : ByteOrder) (cfg : WgDeviceConfig Key) : List (UInt16 × List UInt8) :=
  [(wgdeviceAIfname, asBytes cfg.ifname ++ [0])] ++
    ((cfg.privateKey.map fun k => (wgdeviceAPrivateKey, k.1)).toList ++
    ((cfg.listenPort.map fun p => (wgdeviceAListenPort, neBytes order 2 p.toNat)).toList ++
    ((if cfg.flags ≠ 0 then [(wgdeviceAFlags, neBytes order 4 cfg.flags)] else []) ++
    (if cfg.peers ≠ [] then
      [(wgdeviceAPeers ||| 0x8000, (numbered order (peerAttrs order) cfg.peers).flatten)]
    else []))))

theorem deviceAttrs_eq (cfg : WgDeviceConfig Key) :
    deviceAttrs order cfg =
      (deviceFields order cfg).flatMap fun a => Tlv.encode order a.1 a.2 := by
  simp only [deviceAttrs, deviceFields, List.append_assoc, List.flatMap_append]
  refine congrArg₂ _ (List.append_nil _).symm
    (congrArg₂ _ ?_ (congrArg₂ _ ?_ (congrArg₂ _ ?_ ?_)))
  · cases cfg.privateKey with
    | none => rfl
    | some k => exact (List.append_nil _).symm
  · cases cfg.listenPort with
    | none => rfl
    | some p => exact (List.append_nil _).symm
  · split
    · exact (List.append_nil _).symm
    · rfl
  · split
    · exact (List.append_nil _).symm
    · rfl

theorem deviceField_other {t : UInt16} (info : WgDeviceInfo) (v : List UInt8)
    (hifindex : t ≠ wgdeviceAIfindex) (hport : t ≠ wgdeviceAListenPort)
    (hpeers : t ≠ wgdeviceAPeers) : deviceField order info (t, v) = some info := by
  rw [deviceField, if_neg hifindex, if_neg hport, if_neg hpeers]

theorem deviceField_listenPort (info : WgDeviceInfo) (p : UInt16) :
    deviceField order info (wgdeviceAListenPort, neBytes order 2 p.toNat) =
      some { info with listenPort := p } := by
  simp [deviceField, wgdeviceAListenPort, wgdeviceAIfindex, u16Of_neBytes]

theorem deviceField_peers {peers : List (WgPeerConfig Key)} (info : WgDeviceInfo)
    (hpeers : ∀ p ∈ peers, 4 + (peerAttrs order p).flatten.length < 65536) :
    deviceField order info (wgdeviceAPeers, (numbered order (peerAttrs order) peers).flatten) =
      some { info with peers := info.peers ++ peers.map peerInfo } := by
  obtain ⟨nlas, hnlas, hread⟩ := Option.bind_eq_some_iff.mp (mapM_parsePeer_numbered hpeers)
  simp [deviceField, wgdeviceAPeers, wgdeviceAIfindex, wgdeviceAListenPort, hnlas, hread]

theorem length_deviceFields {cfg : WgDeviceConfig Key}
    (hname : 4 + (asBytes cfg.ifname ++ [0]).length < 65536)
    (hpeers : 4 + (numbered order (peerAttrs order) cfg.peers).flatten.length < 65536) :
    ∀ a ∈ deviceFields order cfg, 4 + a.2.length < 65536 := by
  simp only [deviceFields, List.forall_mem_append]
  refine ⟨List.forall_mem_singleton.mpr hname, ?_, ?_, ?_, ?_⟩
  · cases cfg.privateKey with
    | none => simp
    | some k => simp [k.2]
  · cases cfg.listenPort <;> simp
  · split <;> simp
  · split
    · exact List.forall_mem_singleton.mpr hpeers
    · exact fun a ha => absurd ha List.not_mem_nil

/-- **A device is read back as it was configured**, with its port and its peers. -/
theorem readDevice_deviceAttrs {cfg : WgDeviceConfig Key}
    (hname : 4 + (asBytes cfg.ifname ++ [0]).length < 65536)
    (hpeers : 4 + (numbered order (peerAttrs order) cfg.peers).flatten.length < 65536) :
    readDevice order (deviceAttrs order cfg) =
      some { listenPort := cfg.listenPort.getD 0, peers := cfg.peers.map peerInfo } := by
  rw [readDevice, deviceAttrs_eq, parseNlas, Tlv.parse_encoded (length_deviceFields hname hpeers)]
  have hentries : ∀ p ∈ cfg.peers, 4 + (peerAttrs order p).flatten.length < 65536 := by
    intro p hp
    have hle := length_entry_le order (peerAttrs order) hp
    omega
  obtain ⟨ifname, privateKey, listenPort, flags, peers⟩ := cfg
  have hifname : ∀ v, deviceField order {} (wgdeviceAIfname &&& 0x7fff, v) = some {} :=
    fun v => deviceField_other _ v (by decide) (by decide) (by decide)
  have hkey : ((privateKey.map fun k => (wgdeviceAPrivateKey, k.1)).toList.map
      fun a => (a.1 &&& 0x7fff, a.2)).foldlM (deviceField order) {} = some {} := by
    have hfield : ∀ v, deviceField order {} (wgdeviceAPrivateKey &&& 0x7fff, v) = some {} :=
      fun v => deviceField_other _ v (by decide) (by decide) (by decide)
    cases privateKey with
    | none => rfl
    | some k => simp [hfield]
  have hport : ((listenPort.map fun p => (wgdeviceAListenPort, neBytes order 2 p.toNat)).toList.map
      fun a => (a.1 &&& 0x7fff, a.2)).foldlM (deviceField order) {} =
      some { listenPort := listenPort.getD 0 } := by
    have hmask : wgdeviceAListenPort &&& 0x7fff = wgdeviceAListenPort := by decide
    cases listenPort with
    | none => rfl
    | some p => simp [hmask, deviceField_listenPort]
  have hflags : ∀ info, ((if flags ≠ 0 then [(wgdeviceAFlags, neBytes order 4 flags)]
      else []).map fun a => (a.1 &&& 0x7fff, a.2)).foldlM (deviceField order) info =
      some info := by
    intro info
    have hfield : ∀ v, deviceField order info (wgdeviceAFlags &&& 0x7fff, v) = some info :=
      fun v => deviceField_other _ v (by decide) (by decide) (by decide)
    split
    · simp [hfield]
    · rfl
  have hlast : ∀ info : WgDeviceInfo, info.peers = [] → ((if peers ≠ [] then
      [(wgdeviceAPeers ||| 0x8000, (numbered order (peerAttrs order) peers).flatten)]
      else []).map fun a => (a.1 &&& 0x7fff, a.2)).foldlM (deviceField order) info =
      some { info with peers := peers.map peerInfo } := by
    intro info hinfo
    have hmask : (wgdeviceAPeers ||| 0x8000) &&& 0x7fff = wgdeviceAPeers := by decide
    split
    · simp [hmask, deviceField_peers info hentries, hinfo]
    · rename_i hempty
      simp [not_not.mp hempty, ← hinfo]
  simp only [deviceFields, List.map_append, List.foldlM_append, List.map_cons, List.map_nil,
    List.foldlM_cons, List.foldlM_nil, hifname, Option.bind_eq_bind, Option.bind_some,
    Option.pure_def, hkey, hport, hflags]
  rw [hlast _ rfl]

end Genl

end Flannel
