import SensorLink.Samples.Uniform
import SensorLink.Samples.UniformSamples

/-!
# `from_uniform` of `samples/q15.rs` and `samples/q15xl.rs`

The samples of a channel are scaled to 16 bits, with an exponent that fits the largest of them. An `f32` is
a `Float32`, with its operations and casts; the functions of `libm` are a parameter.
-/

namespace SensorLink.Samples

open SensorLink.Lib

/-- The functions of `libm` -/
structure Libm where
  fabsf : Float32 → Float32
  log2f : Float32 → Float32
  ceilf : Float32 → Float32
  roundf : Float32 → Float32
  powf : Float32 → Float32 → Float32

/-- `f32::max` -/
def f32Max (x y : Float32) : Float32 :=
  if x.isNaN then y else if y.isNaN then x else if x < y then y else x

/-- `I16::from_f32` -/
def i16FromF32 (value : Float32) : Int16 :=
  if value.isFinite then
    let value := value.toInt16
    if value = Int16.minValue then value + 1 else value
  else Int16.minValue

/-- `EXPONENT_MIN` -/
def exponentMin : Int8 := Int8.minValue + 15

/-- `EXPONENT_MAX` -/
def exponentMax : Int8 := Int8.maxValue - 15

section Quantize

variable (libm : Libm) {ε : Type} {p nCh max : ℕ}

/-- `abs_max_finite` -/
def absMaxFinite (default : Float32) (values : List Float32) : Float32 :=
  values.foldl (fun max value => if value.isFinite then f32Max (libm.fabsf value) max else max) default

/-- `find_max_exponent` -/
def findMaxExponent (input : Float32) : Int8 :=
  let log := libm.log2f (libm.fabsf input)
  let exponent := (libm.ceilf log).toInt8
  if exponent < exponentMin then exponentMin
  else if exponentMax < exponent then exponentMax
  else exponent

/-- `Q15Channel::from_slice`; the assertion of `Q15Channel::empty` is that the length field holds the
capacity. -/
def Q15Channel.fromSlice (p max : ℕ) (exponent : Int8) (slice : List Float32) :
    Attempt ε (Q15Channel max) := do
  ensure (slice.length ≤ max)
  ensure (max ≤ 256 ^ p - 1)
  let invScale := Int16.maxValue.toFloat32 / libm.powf 2.0 exponent.toFloat32
  let values ← forRange slice.length Q15Channel.empty.values fun splIdx values => do
    let sample ← index slice splIdx
    arraySet values splIdx (i16FromF32 (libm.roundf (sample * invScale)))
  pure ⟨exponent, values⟩

/-- `from_uniform` -/
def Uniform.fromUniform (p : ℕ) (input : UniformSamples Float32 nCh max) :
    Attempt ε (Uniform p nCh max) := do
  let nSamples := input.len
  ensure (max ≤ 256 ^ p - 1)
  let empty : Fin nCh → Q15Channel max := fun _ => Q15Channel.empty
  let chs ← forRange nCh empty fun chIdx chs => do
    let ch ← arrayGet input.ch chIdx
    let samples ← slice ch.toList 0 nSamples
    let exponent := findMaxExponent libm (absMaxFinite libm 0.0 samples)
    let channel ← Q15Channel.fromSlice libm p max exponent samples
    arraySet chs chIdx channel
  pure {
    t := input.t
    fs := input.fs
    data := {
      numSamples := nSamples % 256 ^ p
      ch := chs
      numSamples_lt := Nat.mod_lt _ (Nat.pow_pos (by decide))
      numSamples_le := (Nat.mod_le _ _).trans input.len_le.1 } }

/-! ### The quantized samples -/

/-- A sample in 16 bits -/
def quantize (exponent : Int8) (sample : Float32) : Int16 :=
  i16FromF32 (libm.roundf (sample * (Int16.maxValue.toFloat32 / libm.powf 2.0 exponent.toFloat32)))

/-- The exponent of a channel with the samples -/
def exponentOf (samples : List Float32) : Int8 := findMaxExponent libm (absMaxFinite libm 0.0 samples)

/-- A channel with the samples -/
def Q15Channel.ofSamples (max : ℕ) (samples : List Float32) : Q15Channel max where
  exponent := exponentOf libm samples
  values i := (samples.map (quantize libm (exponentOf libm samples))).getD i 0

/-- The message with all samples of the set -/
def Uniform.quantized (hp : max < 256 ^ p) (input : UniformSamples Float32 nCh max) :
    Uniform p nCh max where
  t := input.t
  fs := input.fs
  data := {
    numSamples := input.len
    ch := fun c => Q15Channel.ofSamples libm max ((input.ch c).toList.take input.len)
    numSamples_lt := input.len_le.1.trans_lt hp
    numSamples_le := input.len_le.1 }

variable {libm}

/-- The loop of `from_slice`. -/
lemma quantizeLoop_eq (exponent : Int8) {samples : List Float32} (h : samples.length ≤ max) :
    (forRange samples.length (fun _ : Fin max => (0 : Int16)) fun splIdx values => do
      let sample ← index samples splIdx
      arraySet values splIdx (quantize libm exponent sample) : Attempt ε _) =
      .ok fun i => (samples.map (quantize libm exponent)).getD i 0 := by
  have hloop : (forRange samples.length (fun _ : Fin max => (0 : Int16)) fun splIdx values => do
      let sample ← index samples splIdx
      arraySet values splIdx (quantize libm exponent sample) : Attempt ε _) =
      .ok fun i => if i < samples.length then (samples.map (quantize libm exponent)).getD i 0 else 0 := by
    refine forRange_fill h fun i values hi _ => ?_
    have hvalue : (samples.map (quantize libm exponent)).getD i 0 =
        quantize libm exponent samples[(i : ℕ)] := by
      simp [hi]
    rw [index_ok hi, ok_bind, hvalue]
  rw [hloop]
  congr 1
  funext i
  split
  · rfl
  next hi => simp [hi]

lemma Q15Channel.fromSlice_eq (hp : max < 256 ^ p) {samples : List Float32} (h : samples.length ≤ max) :
    (Q15Channel.fromSlice libm p max (exponentOf libm samples) samples : Attempt ε _) =
      .ok (Q15Channel.ofSamples libm max samples) := by
  unfold Q15Channel.fromSlice
  rw [ensure_pos h, ok_bind, ensure_pos (Nat.le_sub_one_of_lt hp), ok_bind]
  exact congrArg (· >>= _) (quantizeLoop_eq (exponentOf libm samples) h)

/-- **No sample is lost.** -/
lemma Uniform.fromUniform_eq (hp : max < 256 ^ p) (input : UniformSamples Float32 nCh max) :
    (Uniform.fromUniform libm p input : Attempt ε _) = .ok (Uniform.quantized libm hp input) := by
  obtain ⟨hmax, hch⟩ := input.len_le
  have hloop : (forRange nCh (fun _ : Fin nCh => (Q15Channel.empty : Q15Channel max)) fun chIdx chs => do
      let ch ← arrayGet input.ch chIdx
      let samples ← slice ch.toList 0 input.len
      let channel ← Q15Channel.fromSlice libm p max (exponentOf libm samples) samples
      arraySet chs chIdx channel : Attempt ε _) =
      .ok (Uniform.quantized libm hp input).data.ch := by
    refine forRange_fill_all fun c chs _ => ?_
    have hlen : ((input.ch c).toList.take input.len).length ≤ max := by
      rw [List.length_take]
      omega
    rw [arrayGet_ok c.isLt, ok_bind, slice_ok (Nat.zero_le _) (hch c), ok_bind, List.drop_zero,
      Q15Channel.fromSlice_eq hp hlen, ok_bind]
    rfl
  have hcount : input.len % 256 ^ p = input.len := Nat.mod_eq_of_lt (hmax.trans_lt hp)
  unfold Uniform.fromUniform
  rw [ensure_pos (Nat.le_sub_one_of_lt hp), ok_bind]
  refine (congrArg (· >>= _) hloop).trans ?_
  simp only [ok_bind, hcount]
  rfl

end Quantize

end SensorLink.Samples
