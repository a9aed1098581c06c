import SensorLink.Samples.Uniform
import SensorLink.Samples.UniformSamples

/-!
# The parsers of `samples/deserialize.rs`

The server reads the same messages into growing vectors. A sample is kept as the two numbers it is
computed from, its mantissa and the exponent of its channel: both decoders compute the value with the
same `f32` operations, and it is a NaN exactly for the mantissa `i16::MIN`. The sample interval
`(1_000_000.0 / fs) as i64` is a parameter.
-/

namespace SensorLink.Samples

open SensorLink.Lib

/-! ### Samples -/

/-- A sample, before it is scaled -/
structure Value where
  mantissa : Int16
  exponent : Int8
deriving DecidableEq

/-- `f32::is_nan` of the scaled sample -/
def Value.isNan (v : Value) : Bool := v.mantissa = Int16.minValue

/-- `uniform_timestamps` -/
def uniformTimestamps (interval : UInt32 → Int64) (t : Int64) (fs : UInt32) (numSamples : ℕ) :
    Option (List Int64) :=
  (List.range numSamples).mapM fun i => sampleTimestamp interval t fs i

/-! ### The device -/

/-- `Vec::push`, and `unwrap` -/
def pushUnwrap {ε : Type} {max : ℕ} (vec : HVec Value max) (value : Value) :
    Attempt ε (HVec Value max) :=
  match vec.push value with
  | some vec => .ok vec
  | none => .error .panic

/-- `Uniform::as_uniform` -/
def Uniform.asUniform {ε : Type} {p nCh max : ℕ} (x : Uniform p nCh max) :
    Attempt ε (UniformSamples Value nCh max) := do
  ensure (x.data.numSamples ≤ max)
  let result : UniformSamples Value nCh max := UniformSamples.emptyAt x.t x.fs
  let ch ← forRange nCh result.ch fun chI ch => do
    let src ← arrayGet x.data.ch chI
    let resCh ← arrayGet ch chI
    let resCh ← forRange x.data.numSamples resCh fun sampleIdx resCh => do
      let mantissa ← arrayGet src.values sampleIdx
      pushUnwrap resCh ⟨mantissa, src.exponent⟩
    arraySet ch chI resCh
  pure { result with ch := ch }

/-! ### The server -/

/-- The inner loop of the parsers -/
def parseSamples (allowNan : Bool) (numSamples : ℕ) (exponent : Int8) (sampleBytes : List UInt8)
    (channel : List Value) : Attempt ParseError (List Value) :=
  forRange numSamples channel fun sampleIdx channel => do
    let lo ← index sampleBytes (sampleIdx * 2)
    let hi ← index sampleBytes (sampleIdx * 2 + 1)
    let value : Value := ⟨i16FromBytes [lo, hi], exponent⟩
    if value.isNan && !allowNan then throw (.err .invalid) else pure (channel ++ [value])

/-- `parse_q15_to_nchannel` and `parse_q15xl_to_nchannel_impl`, with a length field of `p` bytes -/
def parseToNchannel (p nCh : ℕ) (interval : UInt32 → Int64) (allowNan : Bool)
    (bytes : List UInt8) : Attempt ParseError (NChannelSamples Value nCh) :=
  if bytes.length < uniformHeaderOverhead then
    throw (.err (.deserialize "Buffer too small for header"))
  else do
    let t := i64FromLeBytes (← slice bytes 0 8)
    let fs := f32FromLeBytes (← slice bytes 8 12)
    if t ≤ 0 then throw (.err .invalid)
    else if f32LeZero fs || f32IsNan fs then throw (.err .invalid)
    else do
      let packet ← sliceFrom bytes 12
      if packet.length < p then pure ⟨[], fs, fun _ => []⟩
      else do
        let numSamples := ofLeBytes (← slice packet 0 p)
        if numSamples = 0 then pure ⟨[], fs, fun _ => []⟩
        else do
          let bytesPerChannel := overheadPerChannel + bytesPerSample * numSamples
          let expectedSize := p + nCh * bytesPerChannel
          if packet.length < expectedSize then
            throw (.err (.deserialize ("Buffer too small: expected " ++ toString expectedSize ++
              " bytes, got " ++ toString packet.length)))
          else do
            let empty : Fin nCh → List Value := fun _ => []
            let dataBytes ← sliceFrom packet p
            let channels ← forRange nCh empty fun chIdx channels => do
              let chStart := chIdx * bytesPerChannel
              let chBytes ← slice dataBytes chStart (chStart + bytesPerChannel)
              let exponent ← index chBytes 0
              let sampleBytes ← sliceFrom chBytes 1
              let channel ← arrayGet channels chIdx
              let channel ← parseSamples allowNan numSamples (i8FromLeBytes [exponent])
                sampleBytes channel
              arraySet channels chIdx channel
            match uniformTimestamps interval t fs numSamples with
            | none => throw (.err .invalid)
            | some timestamps => pure ⟨timestamps, fs, channels⟩

/-- `parse_q15_to_nchannel` -/
def parseQ15ToNchannel (nCh : ℕ) (interval : UInt32 → Int64) (bytes : List UInt8) :
    Attempt ParseError (NChannelSamples Value nCh) :=
  parseToNchannel 1 nCh interval false bytes

/-- `parse_q15xl_to_nchannel` -/
def parseQ15xlToNchannel (nCh : ℕ) (interval : UInt32 → Int64) (bytes : List UInt8) :
    Attempt ParseError (NChannelSamples Value nCh) :=
  parseToNchannel 2 nCh interval false bytes

/-- `parse_q15xl_to_nchannel_allow_nan` -/
def parseQ15xlToNchannelAllowNan (nCh : ℕ) (interval : UInt32 → Int64) (bytes : List UInt8) :
    Attempt ParseError (NChannelSamples Value nCh) :=
  parseToNchannel 2 nCh interval true bytes

end SensorLink.Samples
