import Mathlib.Data.List.Basic
import SensorLink.Lib.Bytes

/-!
# The application header of `meta/firmware.rs` and `meta/firmware/v2.rs`

The validator is generic over the header format: the trait `ApplicationHeader` is a class here, and the
V2 header is its instance. SHA-256 and P-256 are other packages; `Crypto` holds the functions of them
that `utils/crypto.rs` calls. A buffer that the source fills through `&mut [u8]` is an argument and a
result.
-/

namespace SensorLink.Firmware

open SensorLink.Lib

/-! ### `utils/crypto.rs` -/

/-- `crypto::Hash`, an array of `Hash::BINARY_SIZE` bytes -/
structure Hash where
  bytes : List UInt8
  size : bytes.length = 32
deriving DecidableEq

/-- `Hash::try_from_bytes` -/
def Hash.tryFromBytes (bytes : List UInt8) : Option Hash :=
  if h : bytes.length < 32 then none
  else some ⟨bytes.take 32, by rw [List.length_take]; omega⟩

/-- The functions of `sha2` and `p256`: the hash of all bytes passed to a hasher, the parsed form of a
64-byte signature, and the check of a signature against the hash. -/
structure Crypto where
  Signature : Type
  PubKey : Type
  sha256 : List UInt8 → Hash
  signatureFromSlice : List UInt8 → Option Signature
  signatureToBytes : Signature → List UInt8
  signatureToBytes_length : ∀ s, (signatureToBytes s).length = 64
  verifyPrehash : PubKey → Hash → Signature → Bool

/-- `crypto::Hasher`: the bytes it was updated with so far -/
structure Hasher where
  fed : List UInt8
deriving DecidableEq

def Hasher.new : Hasher := ⟨[]⟩

def Hasher.update (hasher : Hasher) (bytesToHash : List UInt8) : Hasher :=
  ⟨hasher.fed ++ bytesToHash⟩

def Hasher.hash (C : Crypto) (hasher : Hasher) : Hash := C.sha256 hasher.fed

/-- `Signature::try_from_bytes` -/
def Crypto.signatureTryFromBytes (C : Crypto) (bytes : List UInt8) : Option C.Signature :=
  if bytes.length < 64 then none else C.signatureFromSlice (bytes.take 64)

/-! ### `meta/section_header.rs` -/

/-- `section_header::Header` -/
inductive Header
  | appMetaV2
  | config
  | bootloaderMeta
deriving DecidableEq, Repr

def headerMask : UInt8 := 0x55

/-- The obfuscated headers `M_HEADER_IMG_V2`, `M_HEADER_CFG` and `M_HEADER_BOOT_META`. -/
def maskedHeader : Header → List UInt8
  | .appMetaV2 => [0x4A ^^^ headerMask, 0x54 ^^^ headerMask, 0x52 ^^^ headerMask, 0x02 ^^^ headerMask]
  | .config => [0x4A ^^^ headerMask, 0x54 ^^^ headerMask, 0x52 ^^^ headerMask, 0x10 ^^^ headerMask]
  | .bootloaderMeta =>
    [0x4A ^^^ headerMask, 0x54 ^^^ headerMask, 0x52 ^^^ headerMask, 0x08 ^^^ headerMask]

/-- `section_header::header` -/
def header (h : Header) : List UInt8 := (maskedHeader h).map (headerMask ^^^ ·)

/-! ### `meta/firmware.rs`: the header trait -/

/-- How much confidence there is about the validity of a firmware. -/
inductive SecurityLevel
  | none
  | integrityOnly
  | signed
deriving DecidableEq, Repr

namespace SecurityLevel

/-- The discriminants, which the order of the levels follows too. -/
def toByte : SecurityLevel → UInt8
  | none => 0
  | integrityOnly => 1
  | signed => 2

/-- `SecurityLevel::try_from` -/
def tryFrom (byte : UInt8) : Option SecurityLevel :=
  if byte = 0 then some none
  else if byte = 1 then some integrityOnly
  else if byte = 2 then some signed
  else Option.none

instance : LT SecurityLevel := ⟨fun a b => a.toByte < b.toByte⟩

instance (a b : SecurityLevel) : Decidable (a < b) := inferInstanceAs (Decidable (a.toByte < b.toByte))

end SecurityLevel

inductive Security (C : Crypto)
  | none
  | integrityOnly (length : ℕ) (hash : Hash)
  | signed (length : ℕ) (signature : C.Signature)

namespace Security

variable {C : Crypto}

def level : Security C → SecurityLevel
  | none => .none
  | integrityOnly _ _ => .integrityOnly
  | signed _ _ => .signed

/-- The total length of the image that the header records, if it does. -/
def length? : Security C → Option ℕ
  | none => Option.none
  | integrityOnly length _ => some length
  | signed length _ => some length

instance [DecidableEq C.Signature] : DecidableEq (Security C)
  | none, none => isTrue rfl
  | integrityOnly l h, integrityOnly l' h' => decidable_of_iff (l = l' ∧ h = h') (by simp)
  | signed l s, signed l' s' => decidable_of_iff (l = l' ∧ s = s') (by simp)
  | none, integrityOnly _ _ => isFalse nofun
  | none, signed _ _ => isFalse nofun
  | integrityOnly _ _, none => isFalse nofun
  | integrityOnly _ _, signed _ _ => isFalse nofun
  | signed _ _, none => isFalse nofun
  | signed _ _, integrityOnly _ _ => isFalse nofun

end Security

inductive ApplicationHeaderError
  | tooFewBytes
  | invalidHeader
  | invalidSecurityLevel
  | invalidSecurityTag
  | invalidLength
  | invalidDeviceType
deriving DecidableEq, Repr

/-- The trait `DeviceType` -/
class DeviceType (D : Type) where
  toByte : D → UInt8
  tryFromByte : UInt8 → Option D

/-- `MAX_AUTH_FIELD_BYTES` -/
def maxAuthFieldBytes : ℕ := 16

/-- The trait `ApplicationHeader`. The three laws are what the validator takes for granted: its buffers
hold the header and the authenticated fields, and the latter serialize without an error. -/
class ApplicationHeader (C : outParam Crypto) (D : outParam Type) (H : Type) where
  binarySize : ℕ
  binarySizeRaw : ℕ
  binarySizeAuth : ℕ
  tryFromBytes : List UInt8 → Except ApplicationHeaderError H
  asBytes : H → List UInt8 → Except ApplicationHeaderError (List UInt8)
  authenticatedFieldsAsBytes : H → List UInt8 → Except ApplicationHeaderError (List UInt8)
  writeSignature : H → ℕ → C.Signature → H
  security : H → Security C
  deviceType : H → D
  antiDowngradeVersion : H → UInt32
  binarySize_pos : 0 < binarySize
  binarySizeAuth_le : binarySizeAuth ≤ maxAuthFieldBytes
  authenticatedFieldsAsBytes_ok : ∀ h bytes, bytes.length = binarySizeAuth →
    ∃ out, authenticatedFieldsAsBytes h bytes = .ok out

/-! ### `meta/firmware/v2.rs` -/

namespace V2

def binarySizeRaw : ℕ := 76
def binarySizeAuth : ℕ := 5
def binarySize : ℕ := binarySizeRaw + binarySizeAuth

/-- `v2::ApplicationHeader` -/
structure AppHeader (C : Crypto) (D : Type) where
  security : Security C
  /-- the bootloader verifies that new firmware has at least the version of the old one -/
  antiDowngradeVersion : UInt32
  deviceType : D

instance {C : Crypto} {D : Type} [DecidableEq C.Signature] [DecidableEq D] :
    DecidableEq (AppHeader C D) := fun a b =>
  decidable_of_iff (a.security = b.security ∧ a.antiDowngradeVersion = b.antiDowngradeVersion ∧
    a.deviceType = b.deviceType) (by cases a; cases b; simp)

namespace AppHeader

variable {C : Crypto} {D : Type} [DeviceType D]

def placeholder (deviceType : D) : AppHeader C D := ⟨.none, 0, deviceType⟩

def securityLevel (h : AppHeader C D) : SecurityLevel := h.security.level

def length (h : AppHeader C D) : Option ℕ := h.security.length?

/-- The length must be the total length of the application firmware including metadata. -/
def writeSignature (h : AppHeader C D) (applicationTotalLength : ℕ) (signature : C.Signature) :
    AppHeader C D :=
  { h with security := .signed applicationTotalLength signature }

/-- The version (4 bytes) and the device type (1 byte), in front of the rest of the buffer. -/
def authenticatedFieldsAsBytes (h : AppHeader C D) (bytes : List UInt8) :
    Except ApplicationHeaderError (List UInt8) :=
  if bytes.length < binarySizeAuth then .error .tooFewBytes
  else .ok (leBytes 4 h.antiDowngradeVersion.toNat ++ [DeviceType.toByte h.deviceType] ++
    bytes.drop binarySizeAuth)

/-- The 64 bytes of the security tag: signature, or hash and zeroes, or zeroes. -/
def securityTag : Security C → List UInt8
  | .none => List.replicate 64 0
  | .integrityOnly _ hash => hash.bytes ++ List.replicate 32 0
  | .signed _ signature => C.signatureToBytes signature

/-- The bytes of a header: magic, level and three reserved bytes, length, security tag, and the
authenticated fields. -/
def layout (level : UInt8) (length : ℕ) (tag : List UInt8) (version : UInt32) (device : UInt8) :
    List UInt8 :=
  header .appMetaV2 ++ ([level, 0, 0, 0] ++ (leBytes 4 length ++ (tag ++
    (leBytes 4 version.toNat ++ [device]))))

/-- `as_bytes`: the header in front of the rest of the buffer. -/
def asBytes (h : AppHeader C D) (bytes : List UInt8) : Except ApplicationHeaderError (List UInt8) :=
  if bytes.length < binarySize then .error .tooFewBytes
  else .ok (layout h.security.level.toByte (h.security.length?.getD 0) (securityTag h.security)
    h.antiDowngradeVersion (DeviceType.toByte h.deviceType) ++ bytes.drop binarySize)

/-- The security part of `try_from_bytes`: `bytes` starts at the security tag. -/
def parseSecurity (length : Option ℕ) (level : SecurityLevel) (bytes : List UInt8) :
    Except ApplicationHeaderError (Security C) :=
  match length, level with
  | _, .none => .ok .none
  | none, _ => .error .invalidLength
  | some length, .integrityOnly =>
    match Hash.tryFromBytes (bytes.take 64) with
    | none => .error .invalidSecurityTag
    | some hash => .ok (.integrityOnly length hash)
  | some length, .signed =>
    match C.signatureTryFromBytes (bytes.take 64) with
    | none => .error .invalidSecurityTag
    | some signature => .ok (.signed length signature)

/-- `try_from_bytes` -/
def tryFromBytes (bytes : List UInt8) : Except ApplicationHeaderError (AppHeader C D) :=
  if bytes.length < binarySize then .error .tooFewBytes
  else if bytes.take 4 ≠ header .appMetaV2 then .error .invalidHeader
  else
    let bytes := bytes.drop 4
    match SecurityLevel.tryFrom (bytes.headD 0) with
    | none => .error .invalidSecurityLevel
    | some level =>
      let bytes := bytes.drop 4
      let length := ofLeBytes (bytes.take 4)
      let bytes := bytes.drop 4
      match parseSecurity (if 0 < length then some length else none) level bytes with
      | .error e => .error e
      | .ok security =>
        let bytes := bytes.drop 64
        let version := UInt32.ofNat (ofLeBytes (bytes.take 4))
        let bytes := bytes.drop 4
        match DeviceType.tryFromByte (bytes.headD 0) with
        | none => .error .invalidDeviceType
        | some deviceType => .ok ⟨security, version, deviceType⟩

end AppHeader

instance {C : Crypto} {D : Type} [DeviceType D] : ApplicationHeader C D (AppHeader C D) where
  binarySize := binarySize
  binarySizeRaw := binarySizeRaw
  binarySizeAuth := binarySizeAuth
  tryFromBytes := AppHeader.tryFromBytes
  asBytes := AppHeader.asBytes
  authenticatedFieldsAsBytes := AppHeader.authenticatedFieldsAsBytes
  writeSignature := AppHeader.writeSignature
  security := AppHeader.security
  deviceType := AppHeader.deviceType
  antiDowngradeVersion := AppHeader.antiDowngradeVersion
  binarySize_pos := by decide
  binarySizeAuth_le := by decide
  authenticatedFieldsAsBytes_ok := by
    intro h bytes hlen
    exact ⟨_, if_neg (by omega)⟩

end V2

/-! ### Parsing what was serialized -/

namespace V2.AppHeader

variable {C : Crypto} {D : Type} [DeviceType D]

@[simp]
lemma length_header (h : Header) : (header h).length = 4 := by cases h <;> rfl

lemma length_layout {tag : List UInt8} (htag : tag.length = 64) (level : UInt8) (length : ℕ)
    (version : UInt32) (device : UInt8) :
    (layout level length tag version device).length = binarySize := by
  simp only [layout, List.length_append, length_header, length_leBytes, htag, List.length_cons,
    List.length_nil]
  rfl

/-- Each field of a serialized header is parsed back. -/
theorem tryFromBytes_layout {tag : List UInt8} (htag : tag.length = 64) (level : SecurityLevel)
    {length : ℕ} (hlength : length < 2 ^ 32) {security : Security C}
    (hsec : parseSecurity (if 0 < length then some length else none) level tag = .ok security)
    (version : UInt32) {device : UInt8} {deviceType : D}
    (hdev : DeviceType.tryFromByte device = some deviceType) (rest : List UInt8) :
    tryFromBytes (layout level.toByte length tag version device ++ rest) =
      .ok ⟨security, version, deviceType⟩ := by
  have hlen : ¬ (layout level.toByte length tag version device ++ rest).length < binarySize := by
    rw [List.length_append, length_layout htag]
    omega
  have hmagic : (layout level.toByte length tag version device ++ rest).take 4 =
      header .appMetaV2 := by
    rw [layout, List.append_assoc]
    exact List.take_left' (length_header _)
  have hlevel : SecurityLevel.tryFrom level.toByte = some level := by cases level <;> rfl
  have h256 : length % 256 ^ 4 = length := Nat.mod_eq_of_lt (by omega)
  have hsec' : ∀ l, parseSecurity (C := C) (if 0 < length then some length else none) level
      (tag ++ l) = .ok security := by
    intro l
    rw [← hsec]
    simp only [parseSecurity, List.take_append_of_le_length htag.ge]
  rw [tryFromBytes, if_neg hlen, if_neg (not_not_intro hmagic)]
  simp only [layout, List.append_assoc, List.drop_left' (length_header _)]
  simp only [List.cons_append, List.nil_append, List.headD_cons, hlevel, List.drop_succ_cons,
    List.drop_zero, List.take_left' (length_leBytes 4 _), List.drop_left' (length_leBytes 4 _),
    ofLeBytes_leBytes, h256, hsec', List.drop_left' htag]
  rw [Nat.mod_eq_of_lt (by have := version.toNat_lt; omega), hdev]
  simp

end V2.AppHeader

end SensorLink.Firmware
