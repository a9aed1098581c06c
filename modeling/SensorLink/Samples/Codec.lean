import Mathlib.Data.Fintype.Basic
import SensorLink.Lib.Slice

/-!
# The sample codecs of `samples/q15.rs` and `samples/q15xl.rs`

The two files are the same up to the length field, which has one byte in `Q15` and two in `Q15XL`:
`Packet p` has a length field of `p` bytes. The invariant of `num_samples`, which only `from_uniform`
and `from_bytes` set, is a field. A mutable slice is an argument and a result; the buffer that
`to_bytes` leaves is the second result.
-/

namespace SensorLink.Samples

open SensorLink.Lib

/-! ### Signed numbers on the wire -/

/-- `i8::to_le_bytes` -/
def i8ToLeBytes (v : Int8) : List UInt8 := leBytes 1 v.toUInt8.toNat

/-- `i8::from_le_bytes` -/
def i8FromLeBytes (bytes : List UInt8) : Int8 := (UInt8.ofNat (ofLeBytes bytes)).toInt8

/-- `I16::to_bytes` -/
def i16ToBytes (v : Int16) : List UInt8 := leBytes 2 v.toUInt16.toNat

/-- `I16::from_bytes` -/
def i16FromBytes (bytes : List UInt8) : Int16 := (UInt16.ofNat (ofLeBytes bytes)).toInt16

@[simp]
lemma length_i8ToLeBytes (v : Int8) : (i8ToLeBytes v).length = 1 := length_leBytes 1 _

@[simp]
lemma length_i16ToBytes (v : Int16) : (i16ToBytes v).length = 2 := length_leBytes 2 _

@[simp]
lemma i8FromLeBytes_toLeBytes (v : Int8) : i8FromLeBytes (i8ToLeBytes v) = v := by
  have h : v.toUInt8.toNat < 256 ^ 1 := v.toUInt8.toNat_lt
  rw [i8FromLeBytes, i8ToLeBytes, ofLeBytes_leBytes, Nat.mod_eq_of_lt h, UInt8.ofNat_toNat]
  rfl

@[simp]
lemma i16FromBytes_toBytes (v : Int16) : i16FromBytes (i16ToBytes v) = v := by
  have h : v.toUInt16.toNat < 256 ^ 2 := v.toUInt16.toNat_lt
  rw [i16FromBytes, i16ToBytes, ofLeBytes_leBytes, Nat.mod_eq_of_lt h, UInt16.ofNat_toNat]
  rfl

lemma i8ToLeBytes_fromLeBytes {bytes : List UInt8} (h : bytes.length = 1) :
    i8ToLeBytes (i8FromLeBytes bytes) = bytes := by
  have hlt : ofLeBytes bytes < UInt8.size := by simpa [h] using ofLeBytes_lt bytes
  have hnat : (i8FromLeBytes bytes).toUInt8.toNat = ofLeBytes bytes := UInt8.toNat_ofNat_of_lt hlt
  rw [i8ToLeBytes, hnat, leBytes_ofLeBytes h]

lemma i16ToBytes_fromBytes {bytes : List UInt8} (h : bytes.length = 2) :
    i16ToBytes (i16FromBytes bytes) = bytes := by
  have hlt : ofLeBytes bytes < UInt16.size := by simpa [h] using ofLeBytes_lt bytes
  have hnat : (i16FromBytes bytes).toUInt16.toNat = ofLeBytes bytes := UInt16.toNat_ofNat_of_lt hlt
  rw [i16ToBytes, hnat, leBytes_ofLeBytes h]

/-! ### The packet -/

/-- `Q15Channel` -/
structure Q15Channel (max : ℕ) where
  exponent : Int8
  values : Fin max → Int16

instance {max : ℕ} : DecidableEq (Q15Channel max) := fun x y =>
  decidable_of_iff (x.exponent = y.exponent ∧ x.values = y.values) (by cases x; cases y; simp)

/-- `Q15Channel::EMPTY` -/
def Q15Channel.empty {max : ℕ} : Q15Channel max := ⟨0, fun _ => 0⟩

/-- The data of a set of samples, with a length field of `p` bytes -/
structure Packet (p nCh max : ℕ) where
  numSamples : ℕ
  ch : Fin nCh → Q15Channel max
  numSamples_lt : numSamples < 256 ^ p
  numSamples_le : numSamples ≤ max

instance {p nCh max : ℕ} : DecidableEq (Packet p nCh max) := fun x y =>
  decidable_of_iff (x.numSamples = y.numSamples ∧ x.ch = y.ch) (by cases x; cases y; simp)

/-- `q15::Q15` -/
abbrev Q15 := Packet 1

/-- `q15xl::Q15XL` -/
abbrev Q15XL := Packet 2

inductive SerializeError where
  | bufferFull (required : ℕ)
deriving DecidableEq

inductive DeserializeError where
  | bufferUnexpectedEnd (expected : ℕ)
  | tooManySamples (actual maxAllowed : ℕ)
deriving DecidableEq

/-- `I16::BYTES_PER_SAMPLE` -/
def bytesPerSample : ℕ := 2

/-- `Q15_OVERHEAD_PER_CHANNEL` -/
def overheadPerChannel : ℕ := 1

/-- `_serialized_size_per_channel`; the assertion is that the length field holds the number. -/
def serializedSizePerChannel {ε : Type} (p n : ℕ) : Attempt ε ℕ :=
  if n = 0 then pure 0
  else do
    ensure (n ≤ 256 ^ p - 1)
    pure (overheadPerChannel + bytesPerSample * n)

/-- `Q15::_serialized_size`; `Q15_OVERHEAD_PER_PACKET` is `p`. -/
def serializedSizeOf {ε : Type} (p nCh n : ℕ) : Attempt ε ℕ :=
  if nCh = 0 then pure 0
  else do
    ensure (n ≤ 256 ^ p - 1)
    if n = 0 then pure 0
    else do
      let perChannel ← serializedSizePerChannel p n
      pure (p + nCh * perChannel)

/-- The body of the loop of `to_bytes`, on the slice of one channel -/
def writeChannel {ε : Type} {max : ℕ} (n : ℕ) (channel : Q15Channel max) (chDst : List UInt8) :
    Attempt ε (List UInt8) := do
  let (chExp, chDst) ← splitAt chDst 1
  let chExp ← copyFromSlice chExp 0 chExp.length (i8ToLeBytes channel.exponent)
  let chDst ← forRange n chDst fun spl chDst => do
    let sample ← arrayGet channel.values spl
    copyFromSlice chDst (2 * spl) (2 * (spl + 1)) (i16ToBytes sample)
  pure (chExp ++ chDst)

/-- The body of the loop of `from_bytes`: the channel read from its slice -/
def readChannel {ε : Type} {max : ℕ} (n : ℕ) (channel : Q15Channel max) (src : List UInt8) :
    Attempt ε (Q15Channel max) := do
  let (chExp, chSrc) ← splitAt src overheadPerChannel
  let exponent ← index chExp 0
  let values ← forRange n channel.values fun spl dst => do
    let lo ← index chSrc (2 * spl)
    let hi ← index chSrc (2 * spl + 1)
    arraySet dst spl (i16FromBytes [lo, hi])
  pure ⟨i8FromLeBytes [exponent], values⟩

/-- The length field, zero when the bytes do not hold one -/
def lengthField (p : ℕ) (bytes : List UInt8) : ℕ :=
  if p ≤ bytes.length then ofLeBytes (bytes.take p) else 0

lemma lengthField_lt (p : ℕ) (bytes : List UInt8) : lengthField p bytes < 256 ^ p := by
  unfold lengthField
  split
  next h => simpa [Nat.min_eq_left h] using ofLeBytes_lt (bytes.take p)
  · exact Nat.pow_pos (by decide)

namespace Packet

variable {p nCh max : ℕ}

/-- `serialized_size` -/
def serializedSize {ε : Type} (x : Packet p nCh max) : Attempt ε ℕ :=
  serializedSizeOf p nCh x.numSamples

/-- `to_bytes`: the slice it returns, and the buffer -/
def toBytes (x : Packet p nCh max) (bytes : List UInt8) :
    Attempt SerializeError (List UInt8 × List UInt8) := do
  let outputLen ← x.serializedSize
  if bytes.length < outputLen then throw (.err (.bufferFull outputLen))
  else if x.numSamples = 0 ∨ nCh = 0 then pure ([], bytes)
  else do
    let output ← slice bytes 0 outputLen
    let output ← copyFromSlice output 0 p (leBytes p x.numSamples)
    -- `output` is shadowed by the slice behind the length field; this slice is returned
    let (lengthBytes, output) ← splitAt output p
    let bytesPerCh ← serializedSizePerChannel p x.numSamples
    let output ← forRange nCh output fun ch output => do
      let chDst ← slice output (ch * bytesPerCh) ((ch + 1) * bytesPerCh)
      let channel ← arrayGet x.ch ch
      let chDst ← writeChannel x.numSamples channel chDst
      pure (copyInto output (ch * bytesPerCh) chDst)
    pure (output, lengthBytes ++ output ++ bytes.drop outputLen)

/-- `from_bytes` -/
def fromBytes (p nCh max : ℕ) (bytes : List UInt8) :
    Attempt DeserializeError (Packet p nCh max) :=
  if hmax : max < lengthField p bytes then
    throw (.err (.tooManySamples (lengthField p bytes) max))
  else if 0 < lengthField p bytes then do
    let expectedBytes ← serializedSizeOf p nCh (lengthField p bytes)
    if bytes.length < expectedBytes then throw (.err (.bufferUnexpectedEnd expectedBytes))
    else do
      let data ← sliceFrom bytes p
      let bytesPerCh ← serializedSizePerChannel p (lengthField p bytes)
      let empty : Fin nCh → Q15Channel max := fun _ => Q15Channel.empty
      let chs ← forRange nCh empty fun ch chs => do
        let src ← slice data (ch * bytesPerCh) ((ch + 1) * bytesPerCh)
        let channel ← arrayGet chs ch
        let channel ← readChannel (lengthField p bytes) channel src
        arraySet chs ch channel
      pure ⟨lengthField p bytes, chs, lengthField_lt p bytes, by omega⟩
  else pure ⟨0, fun _ => Q15Channel.empty, Nat.pow_pos (by decide), Nat.zero_le max⟩

end Packet

end SensorLink.Samples
