import Flannel.Backend.Wireguard
import Flannel.Lib.Base64
import Flannel.Lib.Run
import Flannel.Lib.Utf8

/-!
# The keys of a node

`keys.rs` and `setup_keys` of `wireguard/device.rs`.  A node has one private key, which it
generates when it first needs one and keeps in a file.  Its public key is announced with its
lease, and the peers configure what they read there; so a node that changes its key while it is
known by the old one is cut off.  `setup_keys` runs for every device, twice in each start if there
is one for each family.

The key file is written in place, so a start that ends in the middle leaves the beginning of a
text.  A text is taken for a key only if it is the whole text of a key (`parse_eq_ok_iff`), and so
the beginning never is: no other key is used then, but no key at all, until somebody removes the
file.

The base64 engine is a parameter, of which its documentation is assumed; so is the way from a
private key to the public one, of which nothing is.
-/

namespace Flannel

namespace Wireguard

open Run

/-! ## Keys -/

/-- `Key`. -/
structure Key where
  bytes : List UInt8
  length_eq : bytes.length = 32
  deriving DecidableEq

/-- How the reading of a key fails. -/
inductive KeyError where
  | base64
  | length (n : Nat)
  deriving DecidableEq, Repr

/-- The `STANDARD` engine of the base64 library. -/
structure Base64Engine where
  encode : List UInt8 → String
  decode : String → Option (List UInt8)

/-- What its documentation says: it pads, asks for the padding, and refuses stray bits in the last
character; so it decodes the text that it writes for some bytes, and no other. -/
structure Base64Engine.Documented (engine : Base64Engine) : Prop where
  decode_encode : ∀ bytes, engine.decode (engine.encode bytes) = some bytes
  encode_of_decode : ∀ text bytes, engine.decode text = some bytes → engine.encode bytes = text
  /-- four ASCII characters for three bytes, the last ones padded -/
  length_encode : ∀ bytes,
    (Text.asBytes (engine.encode bytes)).length = 4 * ((bytes.length + 2) / 3)

namespace Key

variable {engine : Base64Engine}

/-- `Key::parse`. -/
def parse (engine : Base64Engine) (s : String) : Except KeyError Key :=
  match engine.decode s with
  | none => .error .base64
  | some b => if h : b.length = 32 then .ok ⟨b, h⟩ else .error (.length b.length)

/-- The text of a key. -/
def toString (engine : Base64Engine) (k : Key) : String := engine.encode k.bytes

/-- `generate_private_key`, from the bytes of the random number generator: the lowest three bits
and the highest one are cleared, and the one below is set. -/
def generatePrivateKey (random : Key) : Key where
  bytes := (random.bytes.modify 0 (· &&& 248)).modify 31 fun b => (b &&& 127) ||| 64
  length_eq := by simp [random.length_eq]

/-- **A text is taken for a key exactly if it is the text of the key.** -/
theorem parse_eq_ok_iff (hdoc : engine.Documented) {s : String} {k : Key} :
    parse engine s = .ok k ↔ s = k.toString engine := by
  unfold parse
  constructor
  · intro h
    split at h
    · cases h
    · rename_i b hdecode
      split at h
      · cases h
        exact (hdoc.encode_of_decode s b hdecode).symm
      · cases h
  · rintro rfl
    rw [toString, hdoc.decode_encode]
    exact dif_pos k.length_eq

theorem toString_inj (hdoc : engine.Documented) {k k' : Key}
    (h : k.toString engine = k'.toString engine) : k = k' := by
  have hparse := (parse_eq_ok_iff hdoc).mpr h
  rw [(parse_eq_ok_iff hdoc).mpr rfl] at hparse
  exact Except.ok.inj hparse

end Key

/-! ## The key file -/

/-- The keys of a device. -/
structure DeviceKeys where
  privateKey : Key
  publicKey : Key
  psk : Option Key
  deriving DecidableEq

/-- How `setup_keys` fails. -/
inductive KeysError where
  | generate
  | write
  | read
  | utf8 (e : Text.Utf8Error)
  | privateKey (e : KeyError)
  | psk (e : KeyError)

/-- How far `write_private_key` gets. -/
inductive KeyWrite where
  | done
  /-- the file has these many bytes of the text, and no more -/
  | broken (n : Nat)
  /-- the file could not be made -/
  | refused
  deriving DecidableEq

/-- The end of `setup_keys`: the preshared key, if the configuration has one. -/
def withPsk (engine : Base64Engine) (publicKey : Key → Key) (privateKey : Key) (psk : String) :
    Except KeysError DeviceKeys :=
  if psk = "" then .ok ⟨privateKey, publicKey privateKey, none⟩
  else
    match Key.parse engine psk with
    | .error e => .error (.psk e)
    | .ok k => .ok ⟨privateKey, publicKey privateKey, some k⟩

/-- A call of `setup_keys`: the random bytes, if there are any, how far a write gets, whether a
file can be read, and the preshared key of the configuration. -/
structure KeySetup where
  random : Option Key
  write : KeyWrite
  readable : Bool
  psk : String

/-- `setup_keys`, with `write_private_key`: the keys, and the key file afterwards. -/
def setupKeys (engine : Base64Engine) (publicKey : Key → Key) (file : Option (List UInt8))
    (c : KeySetup) : Except KeysError DeviceKeys × Option (List UInt8) :=
  match file with
  | none =>
    match c.random with
    | none => (.error .generate, none)
    | some random =>
      let privateKey := Key.generatePrivateKey random
      let content := Text.asBytes (privateKey.toString engine)
      match c.write with
      | .refused => (.error .write, none)
      | .broken n => (.error .write, some (content.take n))
      | .done => (withPsk engine publicKey privateKey c.psk, some content)
  | some content =>
    if c.readable then
      match Text.fromUtf8 content with
      | .error e => (.error (.utf8 e), file)
      | .ok data =>
        match Key.parse engine data with
        | .error e => (.error (.privateKey e), file)
        | .ok privateKey => (withPsk engine publicKey privateKey c.psk, file)
    else (.error .read, file)

/-- The file of a key. -/
def fileOf (engine : Base64Engine) (k : Key) : List UInt8 := Text.asBytes (k.toString engine)

section Setup

variable {engine : Base64Engine} {publicKey : Key → Key} {file : Option (List UInt8)}
  {c : KeySetup} {psk : String} {d : DeviceKeys}

theorem withPsk_ok {privateKey : Key} (h : withPsk engine publicKey privateKey psk = .ok d) :
    d.privateKey = privateKey ∧ d.publicKey = publicKey privateKey := by
  unfold withPsk at h
  split at h
  · cases h
    exact ⟨rfl, rfl⟩
  · split at h
    · cases h
    · cases h
      exact ⟨rfl, rfl⟩

/-- What the file of a key is read as. -/
theorem fromUtf8_parse_iff (hdoc : engine.Documented) {content : List UInt8} {k : Key} :
    (∃ data, Text.fromUtf8 content = .ok data ∧ Key.parse engine data = .ok k) ↔
      content = fileOf engine k := by
  constructor
  · rintro ⟨data, hdata, hparse⟩
    rw [← Text.asBytes_of_fromUtf8 hdata, (Key.parse_eq_ok_iff hdoc).mp hparse, fileOf]
  · rintro rfl
    exact ⟨k.toString engine, Text.fromUtf8_asBytes _, (Key.parse_eq_ok_iff hdoc).mpr rfl⟩

/-- A file is never changed. -/
theorem setupKeys_file {content : List UInt8} :
    (setupKeys engine publicKey (some content) c).2 = some content := by
  unfold setupKeys
  dsimp only
  split
  · split
    · rfl
    · split
      · rfl
      · rfl
  · rfl

/-- The private key of a setup: a new one that has been written, or that of the file. -/
def HasKey (engine : Base64Engine) (file : Option (List UInt8)) (c : KeySetup)
    (privateKey : Key) : Prop :=
  file = none ∧ (∃ random, c.random = some random ∧ privateKey = .generatePrivateKey random) ∧
      c.write = .done ∨
    file = some (fileOf engine privateKey) ∧ c.readable = true

/-- **What a setup gives.** -/
theorem setupKeys_ok_iff (hdoc : engine.Documented) :
    (setupKeys engine publicKey file c).1 = .ok d ↔
      ∃ privateKey, HasKey engine file c privateKey ∧
        withPsk engine publicKey privateKey c.psk = .ok d := by
  unfold HasKey setupKeys
  cases file with
  | none =>
    cases hrandom : c.random with
    | none => simp
    | some random =>
      cases hwrite : c.write with
      | refused => simp
      | broken n => simp
      | done => simp
  | some content =>
    cases hreadable : c.readable with
    | false => simp
    | true =>
      -- the file is that of a key exactly if the reading gives the key
      have hread := fun k => @fromUtf8_parse_iff engine hdoc content k
      dsimp only
      rw [if_pos rfl]
      cases hdata : Text.fromUtf8 content with
      | error e =>
        refine iff_of_false (by simp) ?_
        rintro ⟨k, ⟨hnone, -⟩ | ⟨hcontent, -⟩, -⟩
        · cases hnone
        · obtain ⟨data, hdata', -⟩ := (hread k).mpr (Option.some.inj hcontent)
          rw [hdata] at hdata'
          cases hdata'
      | ok data =>
        have hkey : ∀ k, content = fileOf engine k ↔ Key.parse engine data = .ok k := by
          intro k
          rw [← hread, hdata]
          simp
        dsimp only
        cases hparse : Key.parse engine data with
        | error e =>
          refine iff_of_false (by simp) ?_
          rintro ⟨k, ⟨hnone, -⟩ | ⟨hcontent, -⟩, -⟩
          · cases hnone
          · rw [Option.some.injEq, hkey, hparse] at hcontent
            cases hcontent
        | ok privateKey =>
          constructor
          · intro h
            refine ⟨privateKey, Or.inr ⟨?_, rfl⟩, h⟩
            rw [Option.some.injEq, hkey, hparse]
          · rintro ⟨k, ⟨hnone, -⟩ | ⟨hcontent, -⟩, h⟩
            · cases hnone
            · rw [Option.some.injEq, hkey, hparse, Except.ok.injEq] at hcontent
              rw [hcontent]
              exact h

/-- A setup that succeeds leaves the file of its key. -/
theorem setupKeys_ok (hdoc : engine.Documented)
    (h : (setupKeys engine publicKey file c).1 = .ok d) :
    (setupKeys engine publicKey file c).2 = some (fileOf engine d.privateKey) ∧
      d.publicKey = publicKey d.privateKey ∧
      (file = none ∨ file = some (fileOf engine d.privateKey)) := by
  obtain ⟨privateKey, hkey, hpsk⟩ := (setupKeys_ok_iff hdoc).mp h
  obtain ⟨rfl, hpublic⟩ := withPsk_ok hpsk
  refine ⟨?_, hpublic, ?_⟩
  · rcases hkey with ⟨rfl, ⟨random, hrandom, hgenerated⟩, hwrite⟩ | ⟨rfl, -⟩
    · simp only [setupKeys, hrandom, hwrite, hgenerated]
      rfl
    · exact setupKeys_file
  · rcases hkey with ⟨hnone, -⟩ | ⟨hsome, -⟩
    · exact Or.inl hnone
    · exact Or.inr hsome

end Setup

/-! ## The life of the key -/

/-- The key file of a node, and the keys that its devices have been given. -/
structure KeyNode where
  file : Option (List UInt8)
  used : List DeviceKeys

namespace KeyNode

variable {engine : Base64Engine} {publicKey : Key → Key} {s t : KeyNode} {c : KeySetup}

/-- A call of `setup_keys`. -/
def step (engine : Base64Engine) (publicKey : Key → Key) (s : KeyNode) (c : KeySetup) :
    Option KeyNode :=
  let (result, file) := setupKeys engine publicKey s.file c
  some ⟨file, s.used ++ result.toOption.toList⟩

theorem step_eq_some_iff : step engine publicKey s c = some t ↔
    ⟨(setupKeys engine publicKey s.file c).2,
      s.used ++ (setupKeys engine publicKey s.file c).1.toOption.toList⟩ = t := by
  rw [step, Option.some.injEq]

/-- All devices have been given the key of the file. -/
def Faithful (engine : Base64Engine) (publicKey : Key → Key) (s : KeyNode) : Prop :=
  ∀ d ∈ s.used, s.file = some (fileOf engine d.privateKey) ∧
    d.publicKey = publicKey d.privateKey

theorem faithful_step (hdoc : engine.Documented) (h : Faithful engine publicKey s)
    (hst : step engine publicKey s c = some t) : Faithful engine publicKey t := by
  rw [step_eq_some_iff] at hst
  subst hst
  intro d hd
  rcases List.mem_append.mp hd with hd | hd
  · obtain ⟨hfile, hpublic⟩ := h d hd
    refine ⟨?_, hpublic⟩
    show (setupKeys engine publicKey s.file c).2 = _
    rw [hfile]
    exact setupKeys_file
  · have hok : (setupKeys engine publicKey s.file c).1 = .ok d := by
      rw [Option.mem_toList] at hd
      cases hresult : (setupKeys engine publicKey s.file c).1 with
      | error e =>
        rw [hresult] at hd
        cases hd
      | ok d' =>
        rw [hresult] at hd
        cases hd
        rfl
    obtain ⟨hfile, hpublic, -⟩ := setupKeys_ok hdoc hok
    exact ⟨hfile, hpublic⟩

end KeyNode

end Wireguard

end Flannel
