import SensorLink.Firmware.Header
import SensorLink.Lib.Fields
import SensorLink.Protocol.BoundedStrings

/-!
# The bootloader metadata of `meta/bootloader.rs`

A header and two texts of 16 bytes, filled up with zeros. A subslice `&mut bytes[n..]` is the second
part of a split; the first part is put before it at the end.
-/

namespace SensorLink.Firmware

open SensorLink.Lib SensorLink.Protocol
open V2.AppHeader (length_header)

structure BootloaderMeta where
  version : String
  gitRevision : String
deriving DecidableEq

inductive BootloaderMetaError
  | tooFewBytes
  | invalidHeader
  | invalidVersion
  | invalidGitRevision
deriving DecidableEq

/-- `for i in 0..end { if slice[i] == 0 { end = i; break; } }`, from round `i` on; the first argument
is the number of rounds that are left. -/
def findEnd (bytes : List UInt8) : ℕ → ℕ → Attempt Utf8Error ℕ
  | 0, _ => return bytes.length
  | rounds + 1, i => do
    if (← index bytes i) = 0 then return i else findEnd bytes rounds (i + 1)

/-- `str_from_zero_padded_slice` -/
def strFromZeroPaddedSlice (bytes : List UInt8) : Attempt Utf8Error String := do
  let stop ← findEnd bytes bytes.length 0
  strFromUtf8 (← slice bytes 0 stop)

namespace BootloaderMeta

def versionLen : ℕ := 16

/-- `BootloaderMeta::BINARY_SIZE` -/
def binarySize : ℕ := 4 + 2 * versionLen

/-- `BootloaderMeta::as_bytes` -/
def asBytes (self : BootloaderMeta) (bytes : List UInt8) : Attempt BootloaderMetaError (List UInt8) :=
  if bytes.length < binarySize then .error (.err .tooFewBytes)
  else do
    let (bytes, beyond) ← splitAt bytes binarySize
    -- initialize all zeroes
    let bytes := List.replicate bytes.length 0
    -- 4-byte header
    let bytes ← copyFromSlice bytes 0 4 (header .bootloaderMeta)
    let (head, bytes) ← splitAt bytes 4
    -- 16-byte version string (0-padded)
    let version := strBytes self.version
    let len := min version.length versionLen
    let bytes ← copyFromSlice bytes 0 len (← slice version 0 len)
    let (version, bytes) ← splitAt bytes versionLen
    -- 16-byte git revision string (0-padded)
    let gitRev := strBytes self.gitRevision
    let len := min gitRev.length versionLen
    let bytes ← copyFromSlice bytes 0 len (← slice gitRev 0 len)
    let (gitRev, bytes) ← splitAt bytes versionLen
    return head ++ (version ++ (gitRev ++ (bytes ++ beyond)))

/-- `BootloaderMeta::try_from_bytes` -/
def tryFromBytes (bytes : List UInt8) : Attempt BootloaderMetaError BootloaderMeta :=
  if bytes.length < binarySize then .error (.err .tooFewBytes)
  else do
    -- 4-byte header
    if (← slice bytes 0 4) ≠ header .bootloaderMeta then
      .error (.err .invalidHeader)
    else do
      let bytes ← sliceFrom bytes 4
      -- 16-byte version string
      let version ← (strFromZeroPaddedSlice (← slice bytes 0 versionLen)).mapErr
        fun _ => BootloaderMetaError.invalidVersion
      let bytes ← sliceFrom bytes versionLen
      -- 16-byte git revision
      let gitRevision ← (strFromZeroPaddedSlice (← slice bytes 0 versionLen)).mapErr
        fun _ => BootloaderMetaError.invalidGitRevision
      let _ ← (sliceFrom bytes versionLen : Attempt BootloaderMetaError _)
      return ⟨version, gitRevision⟩

end BootloaderMeta

/-! ### Reading a text -/

section Text

variable {ε : Type} {bytes : List UInt8} {text : String} {n m : ℕ}

lemma findEnd_eq (bytes : List UInt8) (rounds i : ℕ) (h : i + rounds = bytes.length) :
    findEnd bytes rounds i = .ok (i + (bytes.drop i).findIdx (· == 0)) := by
  induction rounds generalizing i with
  | zero =>
    rw [findEnd, List.drop_of_length_le (by omega), ← h]
    rfl
  | succ rounds ih =>
    have hi : i < bytes.length := by omega
    rw [findEnd, index_ok hi, ok_bind, List.drop_eq_getElem_cons hi, List.findIdx_cons]
    by_cases hz : bytes[i] = 0
    · simp [hz]
      rfl
    · rw [if_neg hz, ih (i + 1) (by omega), beq_eq_false_iff_ne.mpr hz, cond_false]
      congr 1
      omega

/-- The text before the first zero; no index is out of the slice. -/
lemma strFromZeroPaddedSlice_eq (bytes : List UInt8) :
    strFromZeroPaddedSlice bytes = strFromUtf8 (bytes.takeWhile (· != 0)) := by
  have hle : bytes.findIdx (· == 0) ≤ bytes.length := List.findIdx_le_length
  rw [strFromZeroPaddedSlice, findEnd_eq bytes _ _ (Nat.zero_add _), ok_bind, List.drop_zero,
    Nat.zero_add, slice_ok (Nat.zero_le _) hle, ok_bind, List.drop_zero,
    List.takeWhile_eq_take_findIdx_not]
  simp [bne]

lemma strFromUtf8_strBytes (text : String) : strFromUtf8 (strBytes text) = .ok text := by
  rw [strFromUtf8, fromUtf8_strBytes]

lemma strFromUtf8_noPanic (bytes : List UInt8) : NoPanic (strFromUtf8 bytes) := by
  unfold strFromUtf8
  split
  · exact NoPanic.ok _
  · exact NoPanic.err _

lemma strFromZeroPaddedSlice_padTo (h : 0 ∉ strBytes text) :
    strFromZeroPaddedSlice (padTo n (strBytes text)) = .ok text := by
  rw [strFromZeroPaddedSlice_eq, takeWhile_padTo h, strFromUtf8_strBytes]

lemma strFromZeroPaddedSlice_noPanic (bytes : List UInt8) :
    NoPanic (strFromZeroPaddedSlice bytes) := by
  rw [strFromZeroPaddedSlice_eq]
  exact strFromUtf8_noPanic _

/-- A text is copied into its field as a whole when it fits. -/
lemma slice_text (h : text.utf8ByteSize ≤ n) :
    (slice (strBytes text) 0 (min (strBytes text).length n) : Attempt ε _) = .ok (strBytes text) := by
  rw [length_strBytes, min_eq_left h, ← length_strBytes, slice_ok (Nat.zero_le _) le_rfl,
    List.take_length, List.drop_zero]

end Text

namespace BootloaderMeta

/-! ### The round trip -/

section RoundTrip

variable {self : BootloaderMeta} {bytes : List UInt8}

/-- The 36 bytes of the metadata -/
def layout (self : BootloaderMeta) : List UInt8 :=
  header .bootloaderMeta ++
    (padTo versionLen (strBytes self.version) ++ padTo versionLen (strBytes self.gitRevision))

lemma length_layout (hv : self.version.utf8ByteSize ≤ versionLen)
    (hg : self.gitRevision.utf8ByteSize ≤ versionLen) : self.layout.length = binarySize := by
  rw [layout, List.length_append, List.length_append, length_header,
    length_padTo ((length_strBytes _).trans_le hv), length_padTo ((length_strBytes _).trans_le hg)]
  rfl

lemma asBytes_eq (hv : self.version.utf8ByteSize ≤ versionLen)
    (hg : self.gitRevision.utf8ByteSize ≤ versionLen) (hlen : binarySize ≤ bytes.length) :
    self.asBytes bytes = .ok (self.layout ++ bytes.drop binarySize) := by
  have htake : (bytes.take binarySize).length = binarySize := List.length_take_of_le hlen
  have hlv : (strBytes self.version).length ≤ versionLen := (length_strBytes _).trans_le hv
  have hlg : (strBytes self.gitRevision).length ≤ versionLen := (length_strBytes _).trans_le hg
  rw [asBytes, if_neg (by omega), splitAt_ok hlen, ok_bind]
  dsimp only
  rw [htake, write_field (length_header _) le_rfl (by decide)]
  dsimp only
  rw [slice_text hv, ok_bind, min_eq_left hlv, write_field rfl hlv (by decide)]
  dsimp only
  rw [slice_text hg, ok_bind, min_eq_left hlg, write_field rfl hlg (by decide)]
  simp only [padTo_of_length (length_header _), layout, List.append_assoc]
  rfl

lemma tryFromBytes_layout (hv : self.version.utf8ByteSize ≤ versionLen)
    (hg : self.gitRevision.utf8ByteSize ≤ versionLen) (hv0 : 0 ∉ strBytes self.version)
    (hg0 : 0 ∉ strBytes self.gitRevision) (rest : List UInt8) :
    tryFromBytes (self.layout ++ rest) = .ok self := by
  have hlv := length_padTo ((length_strBytes self.version).trans_le hv)
  have hlg := length_padTo ((length_strBytes self.gitRevision).trans_le hg)
  rw [tryFromBytes, if_neg (by rw [List.length_append, length_layout hv hg]; omega), layout,
    List.append_assoc, slice_append (length_header _), ok_bind, if_neg (by simp),
    sliceFrom_append (length_header _), List.append_assoc, ok_bind, slice_append hlv]
  simp only [ok_bind, strFromZeroPaddedSlice_padTo hv0, Attempt.mapErr]
  rw [sliceFrom_append hlv, ok_bind, slice_append hlg]
  simp only [ok_bind, strFromZeroPaddedSlice_padTo hg0]
  rw [sliceFrom_append hlg]
  rfl

lemma tryFromBytes_noPanic (bytes : List UInt8) : NoPanic (tryFromBytes bytes) := by
  unfold tryFromBytes
  split
  · exact NoPanic.err _
  next hlen =>
  have h36 : 36 ≤ bytes.length := not_lt.mp hlen
  refine NoPanic.slice_bind (by omega) fun head _ => ?_
  split
  · exact NoPanic.err _
  refine NoPanic.sliceFrom_bind (by omega) fun texts htexts => ?_
  refine NoPanic.slice_bind (by rw [versionLen]; omega) fun field _ => ?_
  refine NoPanic.bind (strFromZeroPaddedSlice_noPanic _).mapErr fun version _ => ?_
  refine NoPanic.sliceFrom_bind (by rw [versionLen]; omega) fun rev hrev => ?_
  rw [versionLen] at hrev
  refine NoPanic.slice_bind (by rw [versionLen]; omega) fun field _ => ?_
  refine NoPanic.bind (strFromZeroPaddedSlice_noPanic _).mapErr fun gitRevision _ => ?_
  exact NoPanic.sliceFrom_bind (by rw [versionLen]; omega) fun _ _ => NoPanic.ok _

end RoundTrip

end BootloaderMeta

end SensorLink.Firmware
