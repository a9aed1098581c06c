import Mathlib.Logic.Function.Basic
import SensorLink.Firmware.Chunking

/-!
# Signing an image

`sign` of `meta/firmware.rs` hashes the bytes behind the raw header, the validator the authenticated
fields that it has parsed and then the bytes behind the whole header. These are the same bytes when the
device type writes the byte that it was read from (`drop_of_tryFromBytes`). An image that is nothing but
a header is an exception: the validator waits for a call after it. And a length of zero cannot be
written to a header, because it stands for no length.
-/

namespace SensorLink.Firmware

open SensorLink.Lib

inductive SignError
  /-- not a valid image that can be signed -/
  | invalidImage (error : ApplicationHeaderError)
  | signing
deriving DecidableEq

/-- `PrivKey` of `utils/crypto.rs`, with the function of `p256` that it calls. -/
structure Signer (C : Crypto) where
  PrivKey : Type
  sign : PrivKey → List UInt8 → Option C.Signature

/-- `sign`: the signed image. -/
def sign {C : Crypto} {D : Type} (H : Type) [ApplicationHeader C D H] (S : Signer C)
    (signingKey : S.PrivKey) (binary : List UInt8) : Except SignError (List UInt8) :=
  match ApplicationHeader.tryFromBytes (H := H) binary with
  | .error e => .error (.invalidImage e)
  | .ok header =>
    -- without the unsigned part of the header
    match S.sign signingKey (binary.drop (ApplicationHeader.binarySizeRaw H)) with
    | none => .error .signing
    | some signature =>
      match ApplicationHeader.asBytes (ApplicationHeader.writeSignature header binary.length signature)
          (binary.take (ApplicationHeader.binarySize H)) with
      | .error e => .error (.invalidImage e)
      | .ok headerBytes => .ok (headerBytes ++ binary.drop (ApplicationHeader.binarySize H))

/-- What is relied on of `p256`: a serialized signature is parsed back, and the public key accepts the
signatures of the private key. -/
structure Signer.Matches {C : Crypto} (S : Signer C) (signingKey : S.PrivKey) (pubKey : C.PubKey) :
    Prop where
  parsed : ∀ signature, C.signatureFromSlice (C.signatureToBytes signature) = some signature
  accepted : ∀ message signature, S.sign signingKey message = some signature →
    C.verifyPrehash pubKey (C.sha256 message) signature = true

namespace V2.AppHeader

variable {C : Crypto} {D : Type} [DeviceType D]

/-! ### Headers in bytes -/

lemma length_securityTag (security : Security C) : (securityTag security).length = 64 := by
  cases security with
  | none => simp [securityTag]
  | integrityOnly length hash => simp [securityTag, hash.size]
  | signed length signature => exact C.signatureToBytes_length signature

lemma hash_tryFromBytes (hash : Hash) (rest : List UInt8) :
    Hash.tryFromBytes (hash.bytes ++ rest) = some hash := by
  have hlen : ¬ (hash.bytes ++ rest).length < 32 := by
    rw [List.length_append, hash.size]
    omega
  unfold Hash.tryFromBytes
  rw [dif_neg hlen]
  congr 2
  exact List.take_left' hash.size

/-- The lengths that a header can record. -/
def Recordable (security : Security C) : Prop :=
  ∀ length, security.length? = some length → 0 < length ∧ length < 2 ^ 32

/-- The security part of a header is parsed back from its level, length and tag. -/
lemma parseSecurity_securityTag
    (hparsed : ∀ signature, C.signatureFromSlice (C.signatureToBytes signature) = some signature)
    {security : Security C} (h : Recordable security) :
    parseSecurity (if 0 < security.length?.getD 0 then some (security.length?.getD 0) else none)
      security.level (securityTag security) = .ok security := by
  cases security with
  | none => rfl
  | integrityOnly length hash =>
    have hpos := (h length rfl).1
    have htake : (hash.bytes ++ List.replicate 32 (0 : UInt8)).take 64 =
        hash.bytes ++ List.replicate 32 0 := List.take_of_length_le (by simp [hash.size])
    show parseSecurity (if 0 < length then some length else none) .integrityOnly
      (hash.bytes ++ List.replicate 32 0) = .ok (.integrityOnly length hash)
    rw [if_pos hpos]
    simp only [parseSecurity, htake, hash_tryFromBytes]
  | signed length signature =>
    have hpos := (h length rfl).1
    have hlen := C.signatureToBytes_length signature
    have htake : (C.signatureToBytes signature).take 64 = C.signatureToBytes signature :=
      List.take_of_length_le hlen.le
    have hshort : ¬ (C.signatureToBytes signature).length < 64 := by omega
    show parseSecurity (if 0 < length then some length else none) .signed
      (C.signatureToBytes signature) = .ok (.signed length signature)
    rw [if_pos hpos]
    simp only [parseSecurity, htake, Crypto.signatureTryFromBytes, if_neg hshort, hparsed]

/-- The bytes of a header, in front of whatever follows. -/
lemma tryFromBytes_asBytes
    (hparsed : ∀ signature, C.signatureFromSlice (C.signatureToBytes signature) = some signature)
    {h : AppHeader C D} (hdev : DeviceType.tryFromByte (DeviceType.toByte h.deviceType) = some h.deviceType)
    (hrec : Recordable h.security) {bytes out : List UInt8} (hout : asBytes h bytes = .ok out) :
    tryFromBytes out = .ok h ∧ ∃ head, head.length = binarySize ∧ out = head ++ bytes.drop binarySize ∧
      tryFromBytes head = .ok h := by
  unfold asBytes at hout
  split at hout
  · cases hout
  · cases hout
    have hlt : h.security.length?.getD 0 < 2 ^ 32 := by
      cases hs : h.security.length? with
      | none => simp
      | some length => exact (hrec length hs).2
    have hok : ∀ rest, tryFromBytes (layout h.security.level.toByte (h.security.length?.getD 0)
        (securityTag h.security) h.antiDowngradeVersion (DeviceType.toByte h.deviceType) ++ rest) =
        .ok h := by
      intro rest
      exact tryFromBytes_layout (length_securityTag h.security) _ hlt
        (parseSecurity_securityTag hparsed hrec) _ hdev rest
    refine ⟨hok _, _, length_layout (length_securityTag h.security) _ _ _ _, rfl, ?_⟩
    simpa using hok []

/-- The authenticated fields of an image that parses are those of its header. -/
lemma drop_of_tryFromBytes (hdev : Function.IsPartialInv (DeviceType.toByte (D := D))
    DeviceType.tryFromByte) {bytes : List UInt8} {h : AppHeader C D} (hok : tryFromBytes bytes = .ok h) :
    binarySize ≤ bytes.length ∧ bytes.drop binarySizeRaw =
      leBytes 4 h.antiDowngradeVersion.toNat ++ [DeviceType.toByte h.deviceType] ++
        bytes.drop binarySize := by
  unfold tryFromBytes at hok
  split at hok
  · cases hok
  next hlen =>
    have hle : binarySize ≤ bytes.length := by omega
    have hsize : binarySize = 81 := rfl
    refine ⟨hle, ?_⟩
    split at hok
    · cases hok
    · dsimp only at hok
      split at hok
      · cases hok
      · split at hok
        · cases hok
        · split at hok
          · cases hok
          next deviceType hbyte =>
            cases hok
            simp only [List.drop_drop] at hbyte ⊢
            have hraw : binarySizeRaw = 76 := rfl
            obtain ⟨v, hv⟩ : ∃ v, v = bytes.drop 76 := ⟨_, rfl⟩
            have hvlen : 5 ≤ v.length := by
              rw [hv, List.length_drop]
              omega
            have htail : bytes.drop binarySize = v.drop 5 := by
              rw [hv, List.drop_drop]
              rfl
            have hfour : ofLeBytes (v.take 4) < 2 ^ 32 := by
              refine lt_of_lt_of_le (ofLeBytes_lt _) ?_
              exact Nat.pow_le_pow_right (by decide) (List.length_take_le _ _)
            have hversion : (UInt32.ofNat (ofLeBytes (v.take 4))).toNat = ofLeBytes (v.take 4) := by
              simp only [UInt32.toNat_ofNat']
              exact Nat.mod_eq_of_lt hfour
            have htake : leBytes 4 (ofLeBytes (v.take 4)) = v.take 4 :=
              leBytes_ofLeBytes (by rw [List.length_take]; omega)
            have hdevice : DeviceType.toByte deviceType = (v.drop 4).headD 0 := by
              refine (hdev _ _).mp ?_
              rw [hv, List.drop_drop]
              exact hbyte
            have hhead : v.drop 4 = (v.drop 4).headD 0 :: v.drop 5 := by
              cases hd : v.drop 4 with
              | nil =>
                have := List.drop_eq_nil_iff.mp hd
                omega
              | cons x xs =>
                have hxs : v.drop 5 = (v.drop 4).drop 1 := by rw [List.drop_drop]
                rw [hxs, hd]
                rfl
            rw [hraw, ← hv, htail, hversion, htake, hdevice, List.append_assoc, List.singleton_append,
              ← hhead, List.take_append_drop]

/-! ### Signed images -/

/-- What `sign` makes of an image: a header with the signature in front of the bytes that were there. -/
lemma sign_ok (hdev : Function.IsPartialInv (DeviceType.toByte (D := D)) DeviceType.tryFromByte)
    {S : Signer C} {signingKey : S.PrivKey} {pubKey : C.PubKey} (hkey : S.Matches signingKey pubKey)
    {binary signed : List UInt8} (hlen : binary.length < 2 ^ 32)
    (hsign : sign (AppHeader C D) S signingKey binary = .ok signed) :
    ∃ (original : AppHeader C D) (signature : C.Signature) (head : List UInt8),
      tryFromBytes binary = .ok original ∧
      S.sign signingKey (binary.drop binarySizeRaw) = some signature ∧ head.length = binarySize ∧
      signed = head ++ binary.drop binarySize ∧
      tryFromBytes head = .ok (original.writeSignature binary.length signature) := by
  unfold sign at hsign
  split at hsign
  · cases hsign
  next original hok =>
    split at hsign
    · cases hsign
    next signature hsig =>
      split at hsign
      · cases hsign
      next headerBytes hout =>
        have hle : binarySize ≤ binary.length := (drop_of_tryFromBytes hdev hok).1
        have hrec : Recordable (original.writeSignature binary.length signature).security := by
          intro length hlength
          cases hlength
          exact ⟨lt_of_lt_of_le (by decide) hle, hlen⟩
        obtain ⟨-, head, hhead, rfl, hparsed⟩ := tryFromBytes_asBytes hkey.parsed
          ((hdev _ _).mpr rfl) hrec hout
        have hnil : (binary.take (ApplicationHeader.binarySize (AppHeader C D))).drop binarySize = [] := by
          rw [List.drop_eq_nil_iff, List.length_take]
          exact Nat.min_le_left _ _
        rw [hnil, List.append_nil] at hsign
        cases hsign
        exact ⟨original, signature, head, hok, hsig, hhead, rfl, hparsed⟩

section Validation

variable {S : Signer C} {signingKey : S.PrivKey} {pubKey : C.PubKey}
variable {binary head trailing : List UInt8} {original : AppHeader C D} {signature : C.Signature}

/-- The validator hashes the data that was signed. -/
lemma state_signed (hdev : Function.IsPartialInv (DeviceType.toByte (D := D)) DeviceType.tryFromByte)
    (hok : tryFromBytes binary = .ok original) (hhead : head.length = binarySize)
    (hparsed : tryFromBytes head = .ok (original.writeSignature binary.length signature))
    (hmore : binarySize < (head ++ binary.drop binarySize ++ trailing).length)
    (pubKey : C.PubKey) (minSecurity : SecurityLevel) :
    ((Validator.new pubKey minSecurity original.deviceType).update
      (head ++ binary.drop binarySize ++ trailing)).1.state =
        .complete (original.writeSignature binary.length signature)
          (C.sha256 (binary.drop binarySizeRaw)) := by
  obtain ⟨hle, hsigned⟩ := drop_of_tryFromBytes hdev hok
  set image := head ++ binary.drop binarySize ++ trailing with himage
  set metadata := original.writeSignature binary.length signature
  have hstate := (((Validator.received_new (H := AppHeader C D) pubKey minSecurity
    original.deviceType).whole image).image hmore).1
  have htake : image.take (ApplicationHeader.binarySize (AppHeader C D)) = head := by
    rw [himage, List.append_assoc]
    exact List.take_left' hhead
  have hparsed' : ApplicationHeader.tryFromBytes (H := AppHeader C D) head = .ok metadata := hparsed
  have hlength : (ApplicationHeader.security metadata).length? = some binary.length := rfl
  have hfirst : (head ++ binary.drop binarySize).length = binary.length := by
    rw [List.length_append, hhead, List.length_drop]
    omega
  have hdata : (image.take binary.length).drop (ApplicationHeader.binarySize (AppHeader C D)) =
      binary.drop binarySize := by
    rw [himage, List.take_left' hfirst]
    exact List.drop_left' hhead
  have hhashed : authFields metadata ++ binary.drop binarySize = binary.drop binarySizeRaw := by
    rw [hsigned, authFields_eq]
    rfl
  have himagelen : binary.length ≤ image.length := by
    rw [himage, List.length_append, hfirst]
    omega
  have hge : ¬ binary.length < ApplicationHeader.binarySize (AppHeader C D) := Nat.not_lt.mpr hle
  simp only [Validator.imageState, htake, hparsed', hlength, if_neg hge, hdata, if_pos himagelen,
    Hasher.new, Hasher.update, Hasher.hash, List.nil_append, hhashed] at hstate
  exact hstate

variable [DecidableEq D]

/-- The validator of a signed image accepts it, if something follows the header. -/
lemma verify_signed (hdev : Function.IsPartialInv (DeviceType.toByte (D := D)) DeviceType.tryFromByte)
    (hkey : S.Matches signingKey pubKey) (hok : tryFromBytes binary = .ok original)
    (hsig : S.sign signingKey (binary.drop binarySizeRaw) = some signature)
    (hhead : head.length = binarySize)
    (hparsed : tryFromBytes head = .ok (original.writeSignature binary.length signature))
    (hmore : binarySize < (head ++ binary.drop binarySize ++ trailing).length)
    (minSecurity : SecurityLevel) :
    ((Validator.new pubKey minSecurity original.deviceType).update
      (head ++ binary.drop binarySize ++ trailing)).1.verify =
        .ok (original.writeSignature binary.length signature) := by
  have hstate := state_signed hdev hok hhead hparsed hmore pubKey minSecurity
  have hset := Validator.settings_feed
    (Validator.new (H := AppHeader C D) pubKey minSecurity original.deviceType)
    [head ++ binary.drop binarySize ++ trailing]
  simp only [Validator.feed_cons, Validator.feed_nil, Validator.settings, Prod.mk.injEq] at hset
  obtain ⟨hpub, hmin, hdevice⟩ := hset
  set metadata := original.writeSignature binary.length signature
  have hdevice' : ¬ ApplicationHeader.deviceType metadata ≠ (Validator.new (H := AppHeader C D) pubKey
      minSecurity original.deviceType).deviceType := not_not_intro rfl
  have hlevel : ¬ (ApplicationHeader.security metadata).level < (Validator.new (H := AppHeader C D)
      pubKey minSecurity original.deviceType).minSecurity := by
    show ¬ SecurityLevel.signed < minSecurity
    cases minSecurity <;> decide
  have hversion : ¬ ApplicationHeader.antiDowngradeVersion metadata <
      (Option.map (ApplicationHeader.antiDowngradeVersion (H := AppHeader C D)) none).getD 0 := by
    simp
  unfold Validator.verify Validator.validateUpdate
  simp only [hstate, hpub, hmin, hdevice]
  rw [if_neg hdevice', if_neg hlevel, if_neg hversion]
  exact if_pos (hkey.accepted _ _ hsig)

/-- **A signed image is valid, and headers are parsed back.** The validator that has the matching key
and the device type of the image gets the signed image in one slice, with trailing data; together they
are more than a header. A header that records a length records a positive one. -/
theorem sign_verify (hdev : Function.IsPartialInv (DeviceType.toByte (D := D)) DeviceType.tryFromByte)
    (hkey : S.Matches signingKey pubKey) :
    (∀ binary signed trailing : List UInt8, binary.length < 2 ^ 32 →
      sign (AppHeader C D) S signingKey binary = .ok signed →
      binarySize < (signed ++ trailing).length →
      ∃ (original : AppHeader C D) (signature : C.Signature), tryFromBytes binary = .ok original ∧
        S.sign signingKey (binary.drop binarySizeRaw) = some signature ∧
        (original.writeSignature binary.length signature).securityLevel = .signed ∧
        ∀ minSecurity, ((Validator.new pubKey minSecurity original.deviceType).update
          (signed ++ trailing)).1.verify = .ok (original.writeSignature binary.length signature)) ∧
    ∀ (h : AppHeader C D) (bytes out : List UInt8), Recordable h.security →
      asBytes h bytes = .ok out → tryFromBytes out = .ok h := by
  constructor
  · intro binary signed trailing hlen hsign hmore
    obtain ⟨original, signature, head, hok, hsig, hhead, rfl, hparsed⟩ :=
      sign_ok hdev hkey hlen hsign
    refine ⟨original, signature, hok, hsig, rfl, ?_⟩
    intro minSecurity
    exact verify_signed hdev hkey hok hsig hhead hparsed hmore minSecurity
  · intro h bytes out hrec hout
    exact (tryFromBytes_asBytes hkey.parsed ((hdev _ _).mpr rfl) hrec hout).1

end Validation

/-! ### The image of the tests, signed -/

section Sample

/-- The order of the group of P-256 -/
def sampleOrder : ℕ :=
  115792089210356248762697446949407573529996955224135760342422259061068512044369

/-- Two big-endian numbers from one up to the order. -/
def IsSignature (bytes : List UInt8) : Prop :=
  bytes.length = 64 ∧
    (0 < ofLeBytes (bytes.take 32).reverse ∧ ofLeBytes (bytes.take 32).reverse < sampleOrder) ∧
    0 < ofLeBytes (bytes.drop 32).reverse ∧ ofLeBytes (bytes.drop 32).reverse < sampleOrder

instance (bytes : List UInt8) : Decidable (IsSignature bytes) :=
  inferInstanceAs (Decidable (_ ∧ (_ ∧ _) ∧ _ ∧ _))

/-- The data of the image of the tests that is signed: version, device type and `Hello World.` -/
def sampleMessage : List UInt8 :=
  List.replicate 5 0 ++ [72, 101, 108, 108, 111, 32, 87, 111, 114, 108, 100, 46]

/-- The same of an image without data. -/
def headerMessage : List UInt8 := List.replicate 5 0

/-- The signature of the data for the private key of the examples of RFC 6979. -/
def sampleSignatureBytes : List UInt8 :=
  [131, 242, 154, 185, 161, 59, 24, 36, 133, 235, 165, 252, 182, 142, 238, 216, 44, 128, 176, 87, 139,
    177, 153, 65, 6, 166, 142, 91, 191, 116, 52, 110, 147, 91, 159, 214, 109, 179, 156, 187, 185, 211,
    114, 74, 206, 75, 85, 236, 122, 245, 227, 88, 110, 184, 165, 101, 194, 93, 108, 105, 58, 73, 153, 69]

def headerSignatureBytes : List UInt8 :=
  [205, 6, 207, 131, 171, 27, 181, 147, 110, 245, 42, 172, 24, 208, 140, 93, 242, 67, 190, 125, 5, 93,
    124, 50, 29, 191, 50, 211, 5, 60, 77, 255, 248, 204, 7, 102, 6, 95, 229, 162, 7, 31, 126, 248, 88,
    186, 1, 82, 11, 189, 21, 227, 144, 56, 71, 37, 149, 160, 108, 87, 95, 177, 99, 192]

lemma isSignature_sampleSignatureBytes : IsSignature sampleSignatureBytes := by decide +kernel

lemma isSignature_headerSignatureBytes : IsSignature headerSignatureBytes := by decide +kernel

def headerHash : Hash :=
  ⟨[136, 85, 80, 138, 173, 225, 110, 197, 115, 210, 30, 106, 72, 93, 253, 10, 118, 36, 8, 92, 26, 20,
    181, 236, 221, 100, 133, 222, 12, 104, 57, 164], rfl⟩

/-- SHA-256 and ECDSA on the messages above. -/
def signingCrypto : Crypto where
  Signature := { bytes : List UInt8 // IsSignature bytes }
  PubKey := Unit
  sha256 message := if message = headerMessage then headerHash else sampleSha256 message
  signatureFromSlice bytes := if h : IsSignature bytes then some ⟨bytes, h⟩ else none
  signatureToBytes signature := signature.val
  signatureToBytes_length signature := signature.property.1
  verifyPrehash _ hash signature :=
    (hash == headerHash && signature.val == headerSignatureBytes) ||
      (hash == sampleSha256 sampleMessage && signature.val == sampleSignatureBytes)

instance : DecidableEq signingCrypto.Signature :=
  inferInstanceAs (DecidableEq { bytes : List UInt8 // IsSignature bytes })

def sampleSigner : Signer signingCrypto where
  PrivKey := Unit
  sign _ message :=
    if message = headerMessage then some ⟨headerSignatureBytes, isSignature_headerSignatureBytes⟩
    else if message = sampleMessage then some ⟨sampleSignatureBytes, isSignature_sampleSignatureBytes⟩
    else none

lemma sampleSigner_matches : sampleSigner.Matches () () := by
  constructor
  · intro signature
    exact dif_pos signature.property
  · intro message signature hsig
    simp only [sampleSigner] at hsig
    split at hsig
    next hmessage =>
      subst hmessage
      cases hsig
      rfl
    · split at hsig
      next hmessage =>
        subst hmessage
        cases hsig
        decide +kernel
      · cases hsig

lemma mockDeviceType_isPartialInv :
    Function.IsPartialInv (DeviceType.toByte (D := MockDeviceType)) DeviceType.tryFromByte := by
  intro d byte
  simp only [DeviceType.tryFromByte, DeviceType.toByte]
  constructor
  · intro h
    split_ifs at h with h0 h1
    · cases h
      exact h0.symm
    · cases h
      exact h1.symm
  · intro h
    subst h
    cases d <;> rfl

def sampleHeader : AppHeader signingCrypto MockDeviceType :=
  ⟨.signed 93 ⟨sampleSignatureBytes, isSignature_sampleSignatureBytes⟩, 0, .a⟩

/-- The image of the tests after `sign`. -/
def signedImage : List UInt8 :=
  layout 2 93 sampleSignatureBytes 0 0 ++ [72, 101, 108, 108, 111, 32, 87, 111, 114, 108, 100, 46]

lemma sign_sampleImage : sign (AppHeader signingCrypto MockDeviceType) sampleSigner ()
    Validator.sampleImage = .ok signedImage := by
  decide +kernel

/-- The image of the tests, signed and with trailing data, and the bytes of its header. -/
theorem sign_verify_sample :
    (∃ original : AppHeader signingCrypto MockDeviceType, ∃ signature : signingCrypto.Signature,
      ((Validator.new () .signed original.deviceType).update (signedImage ++ [255, 255])).1.verify =
        .ok (original.writeSignature 93 signature)) ∧
    tryFromBytes (layout 2 93 sampleSignatureBytes 0 0) = .ok sampleHeader := by
  obtain ⟨himage, hheader⟩ := sign_verify mockDeviceType_isPartialInv sampleSigner_matches
  constructor
  · obtain ⟨original, signature, -, -, -, hverify⟩ := himage Validator.sampleImage signedImage [255, 255]
      (by decide) sign_sampleImage (by decide)
    exact ⟨original, signature, hverify .signed⟩
  · refine hheader sampleHeader (List.replicate 81 0) _ ?_ rfl
    intro length hlength
    cases hlength
    decide

/-- An image of level none without data -/
def headerImage : List UInt8 := layout 0 0 (List.replicate 64 0) 0 0

/-- A length of zero is not parsed back, and a signed image without data waits for more. -/
theorem sign_header_incomplete :
    (∃ out, asBytes (⟨.integrityOnly 0 headerHash, 0, .a⟩ : AppHeader signingCrypto MockDeviceType)
        (List.replicate 81 0) = .ok out ∧
      tryFromBytes (C := signingCrypto) (D := MockDeviceType) out = .error .invalidLength) ∧
    ∃ signed, sign (AppHeader signingCrypto MockDeviceType) sampleSigner () headerImage = .ok signed ∧
      ((Validator.new (H := AppHeader signingCrypto MockDeviceType) () .signed .a).update signed).1.verify =
        .error .incomplete := by
  constructor
  · exact ⟨_, rfl, by decide +kernel⟩
  · refine ⟨layout 2 81 headerSignatureBytes 0 0, by decide +kernel, by decide +kernel⟩

end Sample

end V2.AppHeader

end SensorLink.Firmware
