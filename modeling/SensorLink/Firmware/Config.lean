import SensorLink.Firmware.BootloaderMeta

/-!
# The provisioned config of `meta/config.rs`

A header, the serial number, the client certificate and the client key with their lengths, and the
device type, each in a field of a fixed size. The buffer is an array of `BINARY_SIZE` bytes.
-/

namespace SensorLink.Firmware

open SensorLink.Lib SensorLink.Protocol
open V2.AppHeader (length_header)

inductive FirmwareConfigError (D : Type)
  | tooFewBytes
  | invalidHeader
  | invalidSerial
  | invalidClientCert
  | invalidClientKey
  | invalidDeviceType
  | mismatchedDeviceType (d : D)
deriving DecidableEq

def maxSerialStrlen : ℕ := 9

/-- `SerialString` -/
abbrev SerialString := HString maxSerialStrlen

structure FirmwareConfig (D : Type) where
  serial : SerialString
  clientCert : List UInt8
  clientKey : List UInt8
  deviceType : D
deriving DecidableEq

namespace FirmwareConfig

def maxCertSize : ℕ := 1024

def maxKeySize : ℕ := 512

def maxSerialSizeBytes : ℕ := 16

def binarySizeCommon : ℕ := 4 + maxSerialSizeBytes + 4 + maxCertSize + 4 + maxKeySize

/-- `FirmwareConfig::BINARY_SIZE` -/
def binarySize : ℕ := binarySizeCommon + 1

variable {D : Type} [DeviceType D]

/-- `FirmwareConfig::as_bytes` -/
def asBytes (self : FirmwareConfig D) (bytes : List UInt8) : Attempt Empty (List UInt8) := do
  -- initialize all zeroes
  let bytes := List.replicate bytes.length 0
  -- 4-byte header
  let bytes ← copyFromSlice bytes 0 4 (header .config)
  let (head, bytes) ← splitAt bytes 4
  -- serial number string
  let serialBytes := strBytes self.serial.str
  let len := min serialBytes.length maxSerialSizeBytes
  let bytes ← copyFromSlice bytes 0 len (← slice serialBytes 0 len)
  let (serial, bytes) ← splitAt bytes maxSerialSizeBytes
  -- length of client cert
  let certLen := self.clientCert.length
  let bytes ← copyFromSlice bytes 0 4 (leBytes 4 certLen)
  let (certLength, bytes) ← splitAt bytes 4
  -- client cert
  let bytes ← copyFromSlice bytes 0 certLen self.clientCert
  let (cert, bytes) ← splitAt bytes maxCertSize
  -- length of client key
  let keyLen := self.clientKey.length
  let bytes ← copyFromSlice bytes 0 4 (leBytes 4 keyLen)
  let (keyLength, bytes) ← splitAt bytes 4
  -- client key
  let bytes ← copyFromSlice bytes 0 keyLen self.clientKey
  let (key, bytes) ← splitAt bytes maxKeySize
  -- device type
  let bytes ← copyFromSlice bytes 0 1 [DeviceType.toByte self.deviceType]
  let _ ← (sliceFrom bytes 1 : Attempt Empty _)
  return head ++ (serial ++ (certLength ++ (cert ++ (keyLength ++ (key ++ bytes)))))

/-- `FirmwareConfig::try_from_bytes` -/
def tryFromBytes (bytes : List UInt8) : Attempt (FirmwareConfigError D) (FirmwareConfig D) :=
  if bytes.length < binarySize then .error (.err .tooFewBytes)
  else do
    -- 4-byte header
    if (← slice bytes 0 4) ≠ header .config then
      .error (.err .invalidHeader)
    else do
      let common ← sliceFrom bytes 4
      -- serial number string
      let serial ← (tryStringFromBytes maxSerialStrlen (← slice common 0 maxSerialSizeBytes)).mapErr
        fun _ => FirmwareConfigError.invalidSerial
      let common ← sliceFrom common maxSerialSizeBytes
      -- 4 bytes length field for client cert
      let certLen := ofLeBytes (← slice common 0 4)
      let common ← sliceFrom common 4
      if maxCertSize < certLen then .error (.err .invalidClientCert)
      else do
        let clientCert ← slice common 0 certLen
        let common ← sliceFrom common maxCertSize
        -- 4 bytes length field for client key
        let keyLen := ofLeBytes (← slice common 0 4)
        let common ← sliceFrom common 4
        if maxKeySize < keyLen then .error (.err .invalidClientKey)
        else do
          let clientKey ← slice common 0 keyLen
          let common ← sliceFrom common maxKeySize
          -- trailing device-type byte
          match DeviceType.tryFromByte (← index common 0) with
          | none => .error (.err .invalidDeviceType)
          | some deviceType => return ⟨serial, clientCert, clientKey, deviceType⟩

/-! ### The round trip -/

section RoundTrip

variable {self : FirmwareConfig D} {bytes : List UInt8}

/-- What the sizes of the fields ask of a config -/
structure Fits (config : FirmwareConfig D) : Prop where
  cert_le : config.clientCert.length ≤ maxCertSize
  key_le : config.clientKey.length ≤ maxKeySize

/-- The bytes of a config -/
def layout (self : FirmwareConfig D) : List UInt8 :=
  header .config ++ (padTo maxSerialSizeBytes (strBytes self.serial.str) ++
    (leBytes 4 self.clientCert.length ++ (padTo maxCertSize self.clientCert ++
      (leBytes 4 self.clientKey.length ++ (padTo maxKeySize self.clientKey ++
        [DeviceType.toByte self.deviceType])))))

lemma serial_le (serial : SerialString) : serial.str.utf8ByteSize ≤ maxSerialSizeBytes :=
  serial.size_le.trans (by decide)

lemma length_serialField (serial : SerialString) :
    (padTo maxSerialSizeBytes (strBytes serial.str)).length = maxSerialSizeBytes :=
  length_padTo ((length_strBytes _).trans_le (serial_le serial))

lemma length_layout (h : self.Fits) : self.layout.length = binarySize := by
  simp only [layout, List.length_append, length_header, length_serialField, length_leBytes,
    length_padTo h.cert_le, length_padTo h.key_le, List.length_singleton]
  rfl

lemma asBytes_eq (h : self.Fits) (hlen : bytes.length = binarySize) :
    self.asBytes bytes = .ok self.layout := by
  have hserial : (strBytes self.serial.str).length ≤ maxSerialSizeBytes :=
    (length_strBytes _).trans_le (serial_le _)
  rw [asBytes, hlen]
  dsimp only
  rw [write_field (length_header _) le_rfl (by decide)]
  dsimp only
  rw [slice_text (serial_le self.serial), ok_bind, min_eq_left hserial]
  rw [write_field rfl hserial (by decide)]
  dsimp only
  rw [write_field (length_leBytes 4 _) le_rfl (by decide)]
  dsimp only
  rw [write_field rfl h.cert_le (by decide)]
  dsimp only
  rw [write_field (length_leBytes 4 _) le_rfl (by decide)]
  dsimp only
  rw [write_field rfl h.key_le (by decide)]
  dsimp only
  rw [copyFromSlice_zeros List.length_singleton (le_refl 1) (by decide), ok_bind]
  simp only [padTo_of_length (length_header _), padTo_of_length (length_leBytes 4 _), layout]
  rfl

lemma tryStringFromBytes_serial {serial : SerialString} (h0 : 0 ∉ strBytes serial.str) :
    tryStringFromBytes maxSerialStrlen (padTo maxSerialSizeBytes (strBytes serial.str)) =
      .ok serial := by
  have hlen : (strBytes serial.str).length ≤ maxSerialStrlen :=
    (length_strBytes _).trans_le serial.size_le
  have htext : fromUtf8 (beforeZero maxSerialStrlen
      (padTo maxSerialSizeBytes (strBytes serial.str))) = some serial.str := by
    rw [beforeZero, takeWhile_take_padTo h0 hlen, fromUtf8_strBytes]
  have hfull : maxSerialStrlen ≤ (padTo maxSerialSizeBytes (strBytes serial.str)).length :=
    (by decide : maxSerialStrlen ≤ maxSerialSizeBytes).trans_eq (length_serialField serial).symm
  obtain ⟨s, hok, hs⟩ := tryStringFromBytes_of_fromUtf8 (.inl hfull) htext
  rw [hok, HString.ext hs]

lemma tryFromBytes_layout (h : self.Fits) (h0 : 0 ∉ strBytes self.serial.str)
    (hdev : DeviceType.tryFromByte (DeviceType.toByte self.deviceType) = some self.deviceType)
    (rest : List UInt8) : tryFromBytes (self.layout ++ rest) = .ok self := by
  have hcert := length_padTo h.cert_le
  have hkey := length_padTo h.key_le
  have hcert_le := h.cert_le
  have hkey_le := h.key_le
  have hcertLen : ofLeBytes (leBytes 4 self.clientCert.length) = self.clientCert.length := by
    rw [ofLeBytes_leBytes, Nat.mod_eq_of_lt]
    unfold maxCertSize at hcert_le
    omega
  have hkeyLen : ofLeBytes (leBytes 4 self.clientKey.length) = self.clientKey.length := by
    rw [ofLeBytes_leBytes, Nat.mod_eq_of_lt]
    unfold maxKeySize at hkey_le
    omega
  rw [tryFromBytes, if_neg (by rw [List.length_append, length_layout h]; omega), layout]
  simp only [List.append_assoc]
  rw [slice_append (length_header _), ok_bind, if_neg (by simp),
    sliceFrom_append (length_header _), ok_bind, slice_append (length_serialField _), ok_bind,
    tryStringFromBytes_serial h0, sliceFrom_append (length_serialField _)]
  simp only [Attempt.mapErr, ok_bind]
  rw [slice_append (length_leBytes 4 _), ok_bind, sliceFrom_append (length_leBytes 4 _), ok_bind,
    hcertLen, if_neg (by omega), slice_padTo_append, ok_bind, sliceFrom_append hcert, ok_bind,
    slice_append (length_leBytes 4 _), ok_bind, sliceFrom_append (length_leBytes 4 _), ok_bind,
    hkeyLen, if_neg (by omega), slice_padTo_append, ok_bind, sliceFrom_append hkey, ok_bind,
    index_ok (by simp)]
  simp only [List.singleton_append, List.getElem_cons_zero, ok_bind, hdev]
  rfl

end RoundTrip

/-! ### Any bytes -/

lemma tryStringFromBytes_noPanic {n : ℕ} {bytes : List UInt8} (h : n ≤ bytes.length) :
    NoPanic (tryStringFromBytes n bytes) := by
  cases htext : fromUtf8 (beforeZero n bytes) with
  | some text =>
    obtain ⟨s, hok, -⟩ := tryStringFromBytes_of_fromUtf8 (.inl h) htext
    exact hok ▸ NoPanic.ok s
  | none => exact tryStringFromBytes_of_none (.inl h) htext ▸ NoPanic.err _

lemma tryFromBytes_noPanic (bytes : List UInt8) :
    NoPanic (tryFromBytes bytes : Attempt (FirmwareConfigError D) _) := by
  unfold tryFromBytes
  split
  · exact NoPanic.err _
  next hlen =>
  have h1565 : 1565 ≤ bytes.length := not_lt.mp hlen
  refine NoPanic.slice_bind (by omega) fun head _ => ?_
  split
  · exact NoPanic.err _
  refine NoPanic.sliceFrom_bind (by omega) fun common hcommon => ?_
  refine NoPanic.slice_bind (by rw [maxSerialSizeBytes]; omega) fun field hfield => ?_
  have hserial : maxSerialStrlen ≤ field.length := by
    rw [hfield]
    decide
  refine NoPanic.bind (tryStringFromBytes_noPanic hserial).mapErr fun serial _ => ?_
  refine NoPanic.sliceFrom_bind (by rw [maxSerialSizeBytes]; omega) fun cert hcert => ?_
  rw [maxSerialSizeBytes] at hcert
  refine NoPanic.slice_bind (by omega) fun certLen _ => ?_
  refine NoPanic.sliceFrom_bind (by omega) fun cert' hcert' => ?_
  split
  · exact NoPanic.err _
  next hmax =>
  rw [maxCertSize, not_lt] at hmax
  refine NoPanic.slice_bind (by omega) fun clientCert _ => ?_
  refine NoPanic.sliceFrom_bind (by rw [maxCertSize]; omega) fun key hkey => ?_
  rw [maxCertSize] at hkey
  refine NoPanic.slice_bind (by omega) fun keyLen _ => ?_
  refine NoPanic.sliceFrom_bind (by omega) fun key' hkey' => ?_
  split
  · exact NoPanic.err _
  next hmax' =>
  rw [maxKeySize, not_lt] at hmax'
  refine NoPanic.slice_bind (by omega) fun clientKey _ => ?_
  refine NoPanic.sliceFrom_bind (by rw [maxKeySize]; omega) fun device hdevice => ?_
  rw [maxKeySize] at hdevice
  rw [index_ok (by omega), ok_bind]
  split
  · exact NoPanic.err _
  · exact NoPanic.ok _

end FirmwareConfig

/-! ### `config_bin.rs`: the image of the provisioning tool -/

/-- `ProfileDeviceType`: only the byte matters here. -/
structure ProfileDeviceType where
  byte : UInt8
deriving DecidableEq

instance : DeviceType ProfileDeviceType where
  toByte := ProfileDeviceType.byte
  tryFromByte byte := some ⟨byte⟩

/-- `config_bin::build` -/
def build (uid : String) (deviceType : UInt8) (certPem keyPem : List UInt8) :
    Attempt String (List UInt8) :=
  let certLen := certPem.length
  let keyLen := keyPem.length
  let maxCert := FirmwareConfig.maxCertSize
  let maxKey := FirmwareConfig.maxKeySize
  if maxCert < certLen then
    .error (.err s!"certificate PEM is {certLen} bytes, limit {maxCert}")
  else if maxKey < keyLen then
    .error (.err s!"private key PEM is {keyLen} bytes, limit {maxKey}")
  else match HString.tryFrom uid with
    | none => .error (.err s!"UID '{uid}' exceeds {maxSerialStrlen} bytes")
    | some serial =>
      let config : FirmwareConfig ProfileDeviceType := ⟨serial, certPem, keyPem, ⟨deviceType⟩⟩
      (config.asBytes (List.replicate FirmwareConfig.binarySize 0)).mapErr nofun

/-- The firmware reads from an image what the tool was given. -/
lemma tryFromBytes_build {uid : String} {deviceType : UInt8} {certPem keyPem image : List UInt8}
    (h0 : 0 ∉ strBytes uid) (h : build uid deviceType certPem keyPem = .ok image)
    (rest : List UInt8) : ∃ serial : SerialString, serial.str = uid ∧
      FirmwareConfig.tryFromBytes (image ++ rest) =
        .ok (⟨serial, certPem, keyPem, ⟨deviceType⟩⟩ : FirmwareConfig ProfileDeviceType) := by
  unfold build at h
  dsimp only at h
  split at h
  · cases h
  next hcert =>
  split at h
  · cases h
  next hkey =>
  by_cases huid : uid.utf8ByteSize ≤ maxSerialStrlen
  · rw [HString.tryFrom_of_le huid] at h
    dsimp only at h
    set config : FirmwareConfig ProfileDeviceType :=
      ⟨⟨uid, huid⟩, certPem, keyPem, ⟨deviceType⟩⟩ with hconfig
    have hfits : config.Fits := ⟨not_lt.mp hcert, not_lt.mp hkey⟩
    rw [FirmwareConfig.asBytes_eq hfits List.length_replicate] at h
    cases h
    exact ⟨⟨uid, huid⟩, rfl, FirmwareConfig.tryFromBytes_layout hfits h0 rfl rest⟩
  · rw [HString.tryFrom_of_lt (by omega)] at h
    cases h

/-! ### Both sections -/

/-- What is written is read back, by either section, and neither reader panics on any bytes. -/
theorem provisioned_sections_roundtrip :
    (∀ (D : Type) [DeviceType D] (config : FirmwareConfig D) (buffer rest : List UInt8),
      0 ∉ strBytes config.serial.str → config.clientCert.length ≤ FirmwareConfig.maxCertSize →
      config.clientKey.length ≤ FirmwareConfig.maxKeySize →
      (∀ d : D, DeviceType.tryFromByte (DeviceType.toByte d) = some d) →
      buffer.length = FirmwareConfig.binarySize →
      ∃ written, config.asBytes buffer = .ok written ∧ written.length = FirmwareConfig.binarySize ∧
        FirmwareConfig.tryFromBytes written = .ok config ∧
        FirmwareConfig.tryFromBytes (written ++ rest) = .ok config) ∧
    (∀ (md : BootloaderMeta) (buffer : List UInt8),
      md.version.utf8ByteSize ≤ BootloaderMeta.versionLen →
      md.gitRevision.utf8ByteSize ≤ BootloaderMeta.versionLen →
      0 ∉ strBytes md.version → 0 ∉ strBytes md.gitRevision →
      BootloaderMeta.binarySize ≤ buffer.length →
      ∃ written, md.asBytes buffer = .ok written ∧ written.length = buffer.length ∧
        BootloaderMeta.tryFromBytes written = .ok md) ∧
    ∀ bytes : List UInt8, NoPanic (BootloaderMeta.tryFromBytes bytes) ∧
      ∀ (D : Type) [DeviceType D],
        NoPanic (FirmwareConfig.tryFromBytes bytes : Attempt (FirmwareConfigError D) _) := by
  refine ⟨?_, ?_, fun bytes => ⟨BootloaderMeta.tryFromBytes_noPanic bytes,
    fun D _ => FirmwareConfig.tryFromBytes_noPanic bytes⟩⟩
  · intro D _ config buffer rest h0 hcert hkey hdev hbuffer
    have hfits : config.Fits := ⟨hcert, hkey⟩
    have hread := FirmwareConfig.tryFromBytes_layout hfits h0 (hdev _)
    exact ⟨config.layout, FirmwareConfig.asBytes_eq hfits hbuffer,
      FirmwareConfig.length_layout hfits, by simpa using hread [], hread rest⟩
  · intro md buffer hv hg hv0 hg0 hbuffer
    refine ⟨_, BootloaderMeta.asBytes_eq hv hg hbuffer, ?_,
      BootloaderMeta.tryFromBytes_layout hv hg hv0 hg0 _⟩
    rw [List.length_append, BootloaderMeta.length_layout hv hg, List.length_drop]
    omega

/-- A serial, a certificate, a key and a version that fill their fields up -/
theorem provisioned_sections_roundtrip_full :
    (∃ written, (⟨⟨"JTR000001", by decide⟩, List.replicate 1024 0x2D, List.replicate 512 0x2E, ⟨7⟩⟩ :
        FirmwareConfig ProfileDeviceType).asBytes (List.replicate FirmwareConfig.binarySize 0xFF) =
          .ok written ∧ written.length = FirmwareConfig.binarySize ∧
      FirmwareConfig.tryFromBytes written = .ok (⟨⟨"JTR000001", by decide⟩, List.replicate 1024 0x2D,
        List.replicate 512 0x2E, ⟨7⟩⟩ : FirmwareConfig ProfileDeviceType) ∧
      FirmwareConfig.tryFromBytes (written ++ [1, 2]) = .ok (⟨⟨"JTR000001", by decide⟩,
        List.replicate 1024 0x2D, List.replicate 512 0x2E, ⟨7⟩⟩ : FirmwareConfig ProfileDeviceType)) ∧
    ∃ written, (⟨"12.13.14-abc", "0123456789abcdef"⟩ : BootloaderMeta).asBytes
        (List.replicate 40 0x11) = .ok written ∧ written.length = (List.replicate 40 0x11).length ∧
      BootloaderMeta.tryFromBytes written = .ok ⟨"12.13.14-abc", "0123456789abcdef"⟩ :=
  ⟨provisioned_sections_roundtrip.1 ProfileDeviceType _ _ _ (by decide)
      (List.length_replicate).le (List.length_replicate).le (fun _ => rfl) List.length_replicate,
    provisioned_sections_roundtrip.2.1 _ _ (by decide) (by decide) (by decide) (by decide)
      (by rw [List.length_replicate]; decide)⟩

end SensorLink.Firmware
