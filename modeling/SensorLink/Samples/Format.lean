import SensorLink.Samples.Codec

/-!
# The wire format of a packet

The bytes of a channel are its exponent and its samples; a packet is the length field and the channels,
and nothing at all when it has no samples or no channels. `toBytes_eq` and `fromBytes_eq` say what the
loops of the codecs compute in these terms.
-/

namespace SensorLink.Samples

open SensorLink.Lib

variable {ε : Type} {p nCh max n : ℕ}

/-! ### Channels -/

/-- The bytes of a channel with `n` samples -/
def channelSize (n : ℕ) : ℕ := 1 + 2 * n

/-- Sample `i` of the channel -/
def Q15Channel.sample (channel : Q15Channel max) (i : ℕ) : Int16 :=
  if h : i < max then channel.values ⟨i, h⟩ else 0

/-- A channel on the wire -/
def channelBytes (n : ℕ) (channel : Q15Channel max) : List UInt8 :=
  i8ToLeBytes channel.exponent ++ (List.range n).flatMap fun i => i16ToBytes (channel.sample i)

/-- The channel of a slice of the wire -/
def channelOf (max n : ℕ) (src : List UInt8) : Q15Channel max where
  exponent := i8FromLeBytes (src.take 1)
  values i := if i < n then i16FromBytes (((src.drop 1).drop (i * 2)).take 2) else 0

/-- Nothing is stored behind the first `n` samples. -/
def Q15Channel.Blank (n : ℕ) (channel : Q15Channel max) : Prop :=
  ∀ i : Fin max, n ≤ i → channel.values i = 0

instance (n : ℕ) (channel : Q15Channel max) : Decidable (channel.Blank n) := by
  unfold Q15Channel.Blank
  infer_instance

@[simp]
lemma length_channelBytes (n : ℕ) (channel : Q15Channel max) :
    (channelBytes n channel).length = channelSize n := by
  have h := length_flatMap_range n fun i _ => length_i16ToBytes (channel.sample i)
  rw [channelBytes, List.length_append, h, length_i8ToLeBytes, channelSize, Nat.mul_comm]

lemma channelOf_channelBytes {channel : Q15Channel max} (h : channel.Blank n) :
    channelOf max n (channelBytes n channel) = channel := by
  have hexp : (channelBytes n channel).take 1 = i8ToLeBytes channel.exponent := by
    rw [channelBytes, List.take_left' (length_i8ToLeBytes _)]
  have hdrop : (channelBytes n channel).drop 1 =
      (List.range n).flatMap fun i => i16ToBytes (channel.sample i) := by
    rw [channelBytes, List.drop_left' (length_i8ToLeBytes _)]
  have hvalue : ∀ i : Fin max, (channelOf max n (channelBytes n channel)).values i =
      channel.values i := by
    intro i
    simp only [channelOf, hdrop]
    split
    next hi =>
      have hblock := take_drop_flatMap_range
        (fun j _ => length_i16ToBytes (channel.sample j)) hi []
      rw [List.append_nil] at hblock
      rw [hblock, i16FromBytes_toBytes, Q15Channel.sample, dif_pos i.isLt]
    next hi => exact (h i (by omega)).symm
  have hexponent : (channelOf max n (channelBytes n channel)).exponent = channel.exponent := by
    simp [channelOf, hexp]
  cases channel
  exact Q15Channel.mk.injEq _ _ _ _ ▸ ⟨hexponent, funext hvalue⟩

lemma channelBytes_channelOf (hn : n ≤ max) {src : List UInt8} (h : src.length = channelSize n) :
    channelBytes n (channelOf max n src) = src := by
  unfold channelSize at h
  have hexp : i8ToLeBytes (channelOf max n src).exponent = src.take 1 :=
    i8ToLeBytes_fromLeBytes (by rw [List.length_take]; omega)
  have hsample : ∀ i < n, i16ToBytes ((channelOf max n src).sample i) =
      ((src.drop 1).drop (i * 2)).take 2 := by
    intro i hi
    rw [Q15Channel.sample, dif_pos (by omega)]
    simp only [channelOf, if_pos hi]
    apply i16ToBytes_fromBytes
    simp only [List.length_take, List.length_drop]
    omega
  have hlen : (src.drop 1).length = n * 2 := by rw [List.length_drop]; omega
  have hdata := flatMap_range_take_drop n hlen.ge
  rw [List.take_of_length_le hlen.le] at hdata
  rw [channelBytes, hexp, List.flatMap_congr fun i hi => hsample i (List.mem_range.mp hi), hdata,
    List.take_append_drop]

lemma blank_channelOf (src : List UInt8) : (channelOf max n src).Blank n := by
  intro i hi
  simp only [channelOf, if_neg (show ¬ (i : ℕ) < n by omega)]

/-- The inner loop of `to_bytes`. -/
lemma writeSamples_eq (hn : n ≤ max) (channel : Q15Channel max) {chDst : List UInt8}
    (h : chDst.length = n * 2) :
    (forRange n chDst fun spl chDst => do
      let sample ← arrayGet channel.values spl
      copyFromSlice chDst (2 * spl) (2 * (spl + 1)) (i16ToBytes sample) : Attempt ε _) =
      .ok ((List.range n).flatMap fun i => i16ToBytes (channel.sample i)) := by
  let samples (i : ℕ) := i16ToBytes (channel.sample i)
  -- the destination after `i` samples
  let I (i : ℕ) := (List.range i).flatMap samples ++ chDst.drop (i * 2)
  have hsamples : ∀ i, (samples i).length = 2 := fun i => length_i16ToBytes _
  have hI : ∀ i ≤ n, (I i).length = n * 2 := by
    intro i hi
    rw [List.length_append, length_flatMap_range i fun j _ => hsamples j, List.length_drop]
    omega
  have hzero : I 0 = chDst := by simp [I]
  have hend : I n = (List.range n).flatMap samples := by
    simp only [I, List.drop_of_length_le h.le, List.append_nil]
  rw [← hend]
  conv_lhs => rw [← hzero]
  refine forRange_ok I fun i hi => ?_
  have hsample : channel.values ⟨i, by omega⟩ = channel.sample i := by
    rw [Q15Channel.sample, dif_pos (by omega)]
  rw [arrayGet_ok (by omega), hsample]
  have hle : 2 * (i + 1) ≤ (I i).length := by rw [hI i hi.le]; omega
  have hblock : 2 * i + (samples i).length = 2 * (i + 1) := by rw [hsamples]; omega
  have hcopy : copyInto (I i) (2 * i) (samples i) = I (i + 1) := by
    rw [mul_comm 2 i]
    exact copyInto_flatMap_range fun j _ => hsamples j
  rw [← hcopy]
  exact copyFromSlice_ok hle hblock

lemma writeChannel_eq (hn : n ≤ max) (channel : Q15Channel max) {chDst : List UInt8}
    (h : chDst.length = channelSize n) :
    (writeChannel n channel chDst : Attempt ε _) = .ok (channelBytes n channel) := by
  unfold channelSize at h
  have hexp : (chDst.take 1).length = 1 := by rw [List.length_take]; omega
  have hdata : (chDst.drop 1).length = n * 2 := by rw [List.length_drop]; omega
  have hcopy : copyInto (chDst.take 1) 0 (i8ToLeBytes channel.exponent) =
      i8ToLeBytes channel.exponent := by
    rw [copyInto, length_i8ToLeBytes, List.drop_of_length_le (by omega)]
    simp
  have hcopyOk := copyFromSlice_ok (ε := ε) hexp.ge
    (show 0 + (i8ToLeBytes channel.exponent).length = 1 by simp)
  unfold writeChannel
  rw [splitAt_ok (by omega)]
  simp only [ok_bind, hexp, hcopyOk, hcopy, writeSamples_eq hn channel hdata]
  rfl

/-- The inner loop of `from_bytes`. -/
lemma readSamples_eq (hn : n ≤ max) {chSrc : List UInt8} (h : chSrc.length = n * 2) :
    (forRange n (fun _ : Fin max => (0 : Int16)) fun spl dst => do
      let lo ← index chSrc (2 * spl)
      let hi ← index chSrc (2 * spl + 1)
      arraySet dst spl (i16FromBytes [lo, hi]) : Attempt ε _) =
      .ok fun i => if i < n then i16FromBytes ((chSrc.drop (i * 2)).take 2) else 0 := by
  refine forRange_fill hn fun i a hi _ => ?_
  have hlo : 2 * (i : ℕ) + 1 < chSrc.length := by omega
  rw [index_ok (by omega), ok_bind, index_ok hlo, ok_bind, ← take_two_drop hlo, mul_comm 2 (i : ℕ)]

lemma readChannel_eq (hn : n ≤ max) {src : List UInt8} (h : src.length = channelSize n) :
    (readChannel n Q15Channel.empty src : Attempt ε _) = .ok (channelOf max n src) := by
  unfold channelSize at h
  have hexp : 0 < (src.take 1).length := by rw [List.length_take]; omega
  have hdata : (src.drop 1).length = n * 2 := by rw [List.length_drop]; omega
  have hone : [(src.take 1)[0]] = src.take 1 :=
    (List.take_one_drop_eq_of_lt_length hexp).symm.trans (by simp)
  unfold readChannel overheadPerChannel
  rw [splitAt_ok (by omega)]
  simp only [ok_bind, Q15Channel.empty, index_ok hexp, readSamples_eq hn hdata, hone]
  rfl

/-! ### Packets -/

/-- The bytes of a packet -/
def packetSize (p nCh n : ℕ) : ℕ := if n = 0 ∨ nCh = 0 then 0 else p + nCh * channelSize n

lemma serializedSizePerChannel_eq (hn : 0 < n) (hp : n < 256 ^ p) :
    (serializedSizePerChannel p n : Attempt ε ℕ) = .ok (channelSize n) := by
  unfold serializedSizePerChannel
  rw [if_neg (by omega), ensure_pos (by omega)]
  rfl

lemma serializedSizeOf_eq (hp : n < 256 ^ p) :
    (serializedSizeOf p nCh n : Attempt ε ℕ) = .ok (packetSize p nCh n) := by
  unfold serializedSizeOf packetSize
  by_cases hch : nCh = 0
  · rw [if_pos hch, if_pos (.inr hch)]
    rfl
  · rw [if_neg hch, ensure_pos (by omega), ok_bind]
    by_cases hn : n = 0
    · rw [if_pos hn, if_pos (.inl hn)]
      rfl
    · rw [if_neg hn, if_neg (by tauto), serializedSizePerChannel_eq (by omega) hp]
      rfl

namespace Packet

/-- Channel `c` of the packet -/
def channel (x : Packet p nCh max) (c : ℕ) : Q15Channel max :=
  if h : c < nCh then x.ch ⟨c, h⟩ else Q15Channel.empty

/-- The channels on the wire -/
def data (x : Packet p nCh max) : List UInt8 :=
  (List.range nCh).flatMap fun c => channelBytes x.numSamples (x.channel c)

/-- The packet on the wire -/
def encoding (x : Packet p nCh max) : List UInt8 :=
  if x.numSamples = 0 ∨ nCh = 0 then [] else leBytes p x.numSamples ++ x.data

@[simp]
lemma length_data (x : Packet p nCh max) : x.data.length = nCh * channelSize x.numSamples :=
  length_flatMap_range nCh fun c _ => length_channelBytes x.numSamples (x.channel c)

lemma length_encoding (x : Packet p nCh max) :
    x.encoding.length = packetSize p nCh x.numSamples := by
  unfold encoding packetSize
  split
  · rfl
  · rw [List.length_append, length_leBytes, length_data]

lemma serializedSize_eq (x : Packet p nCh max) :
    (x.serializedSize : Attempt ε ℕ) = .ok (packetSize p nCh x.numSamples) :=
  serializedSizeOf_eq x.numSamples_lt

/-- The outer loop of `to_bytes`. -/
lemma writeChannels_eq (x : Packet p nCh max) {output : List UInt8}
    (h : output.length = nCh * channelSize x.numSamples) :
    (forRange nCh output fun ch output => do
      let chDst ← slice output (ch * channelSize x.numSamples)
        ((ch + 1) * channelSize x.numSamples)
      let channel ← arrayGet x.ch ch
      let chDst ← writeChannel x.numSamples channel chDst
      pure (copyInto output (ch * channelSize x.numSamples) chDst) : Attempt ε _) =
      .ok x.data := by
  let k := channelSize x.numSamples
  let block (c : ℕ) := channelBytes x.numSamples (x.channel c)
  -- the output after `c` channels
  let I (c : ℕ) := (List.range c).flatMap block ++ output.drop (c * k)
  have hblock : ∀ c, (block c).length = k := fun c => length_channelBytes _ _
  have hI : ∀ c ≤ nCh, (I c).length = nCh * k := by
    intro c hc
    have hck : c * k ≤ nCh * k := Nat.mul_le_mul_right k hc
    rw [List.length_append, length_flatMap_range c fun j _ => hblock j, List.length_drop, h]
    exact Nat.add_sub_cancel' hck
  have hzero : I 0 = output := by simp [I]
  have hend : I nCh = x.data := by
    simp only [I, List.drop_of_length_le h.le, List.append_nil, k]
    rfl
  rw [← hend]
  conv_lhs => rw [← hzero]
  refine forRange_ok I fun c hc => ?_
  have hle : (c + 1) * k ≤ (I c).length := by
    rw [hI c hc.le]
    exact Nat.mul_le_mul_right k hc
  have hslice : (((I c).take ((c + 1) * k)).drop (c * k)).length = k := by
    rw [List.length_drop, List.length_take, Nat.min_eq_left hle, Nat.succ_mul]
    omega
  have hchannel : x.ch ⟨c, hc⟩ = x.channel c := by rw [channel, dif_pos hc]
  have hlo : c * k ≤ (c + 1) * k := Nat.mul_le_mul_right k (by omega)
  rw [slice_ok hlo hle, ok_bind, arrayGet_ok hc, ok_bind, hchannel,
    writeChannel_eq x.numSamples_le _ hslice, ok_bind]
  exact congrArg _ (copyInto_flatMap_range fun j _ => hblock j)

/-- `to_bytes` writes the packet, and returns what stands behind its length field. -/
lemma toBytes_eq (x : Packet p nCh max) {bytes : List UInt8}
    (h : packetSize p nCh x.numSamples ≤ bytes.length) :
    x.toBytes bytes =
      .ok (x.encoding.drop p, x.encoding ++ bytes.drop (packetSize p nCh x.numSamples)) := by
  unfold toBytes
  rw [serializedSize_eq, ok_bind, if_neg (by omega)]
  by_cases hzero : x.numSamples = 0 ∨ nCh = 0
  · rw [if_pos hzero, encoding, if_pos hzero, packetSize, if_pos hzero]
    simp [pure, Except.pure]
  have hsize : packetSize p nCh x.numSamples = p + nCh * channelSize x.numSamples := if_neg hzero
  let output := bytes.take (packetSize p nCh x.numSamples)
  have houtput : output.length = p + nCh * channelSize x.numSamples := by
    rw [List.length_take]
    omega
  let withLength := copyInto output 0 (leBytes p x.numSamples)
  have hlen : withLength.length = p + nCh * channelSize x.numSamples := by
    rw [length_copyInto (by rw [length_leBytes]; omega), houtput]
  have htake : withLength.take p = leBytes p x.numSamples := by
    have h : withLength.take (0 + (leBytes p x.numSamples).length) =
        output.take 0 ++ leBytes p x.numSamples := take_copyInto (Nat.zero_le _)
    simpa using h
  have hdata : (withLength.drop p).length = nCh * channelSize x.numSamples := by
    rw [List.length_drop]
    omega
  have hcopy := copyFromSlice_ok (ε := SerializeError) (show p ≤ output.length by omega)
    (show 0 + (leBytes p x.numSamples).length = p by simp)
  have hencoding : x.encoding = leBytes p x.numSamples ++ x.data := if_neg hzero
  rw [if_neg hzero, slice_ok (Nat.zero_le _) h, ok_bind, List.drop_zero, hcopy, ok_bind,
    splitAt_ok (show p ≤ withLength.length by omega), ok_bind, hencoding,
    List.drop_left' (length_leBytes _ _)]
  simp only [serializedSizePerChannel_eq (show 0 < x.numSamples by omega) x.numSamples_lt, ok_bind,
    writeChannels_eq x hdata, htake]
  rfl

/-- The packet of its bytes on the wire -/
def ofBytes (p nCh max : ℕ) (bytes : List UInt8) (h : lengthField p bytes ≤ max) :
    Packet p nCh max where
  numSamples := lengthField p bytes
  ch c :=
    if lengthField p bytes = 0 then Q15Channel.empty
    else channelOf max (lengthField p bytes)
      (((bytes.drop p).drop (c * channelSize (lengthField p bytes))).take
        (channelSize (lengthField p bytes)))
  numSamples_lt := lengthField_lt p bytes
  numSamples_le := h

/-- The outer loop of `from_bytes`. -/
lemma readChannels_eq (hn : n ≤ max) {data : List UInt8} (h : nCh * channelSize n ≤ data.length) :
    (forRange nCh (fun _ : Fin nCh => (Q15Channel.empty : Q15Channel max)) fun ch chs => do
      let src ← slice data (ch * channelSize n) ((ch + 1) * channelSize n)
      let channel ← arrayGet chs ch
      let channel ← readChannel n channel src
      arraySet chs ch channel : Attempt ε _) =
      .ok fun c => channelOf max n ((data.drop (c * channelSize n)).take (channelSize n)) := by
  refine forRange_fill_all fun c a hcur => ?_
  have hle : (c + 1) * channelSize n ≤ data.length := (Nat.mul_le_mul_right _ c.isLt).trans h
  have hlo : c * channelSize n ≤ (c + 1) * channelSize n := Nat.mul_le_mul_right _ (by omega)
  have hslice : (data.take ((c + 1) * channelSize n)).drop (c * channelSize n) =
      (data.drop (c * channelSize n)).take (channelSize n) := by
    rw [Nat.succ_mul, List.drop_take, Nat.add_sub_cancel_left]
  have hlen : ((data.drop (c * channelSize n)).take (channelSize n)).length = channelSize n := by
    rw [List.length_take, List.length_drop]
    rw [Nat.succ_mul] at hle
    omega
  rw [slice_ok hlo hle, ok_bind, arrayGet_ok c.isLt, ok_bind, hcur, hslice, readChannel_eq hn hlen,
    ok_bind]

lemma lengthField_le {p max : ℕ} {bytes : List UInt8} (h : ¬ max < lengthField p bytes) :
    lengthField p bytes ≤ max := Nat.le_of_not_lt h

/-- What `from_bytes` does with any bytes. -/
lemma fromBytes_eq (p nCh max : ℕ) (bytes : List UInt8) :
    fromBytes p nCh max bytes =
      if h : max < lengthField p bytes then
        .error (.err (.tooManySamples (lengthField p bytes) max))
      else if bytes.length < packetSize p nCh (lengthField p bytes) then
        .error (.err (.bufferUnexpectedEnd (packetSize p nCh (lengthField p bytes))))
      else .ok (ofBytes p nCh max bytes (lengthField_le h)) := by
  unfold fromBytes
  by_cases hmax : max < lengthField p bytes
  · rw [dif_pos hmax, dif_pos hmax]
    rfl
  rw [dif_neg hmax, dif_neg hmax]
  by_cases hn : 0 < lengthField p bytes
  · rw [if_pos hn, serializedSizeOf_eq (lengthField_lt p bytes), ok_bind]
    by_cases hlen : bytes.length < packetSize p nCh (lengthField p bytes)
    · rw [if_pos hlen, if_pos hlen]
      rfl
    have hp : p ≤ bytes.length := by
      by_contra hp
      rw [lengthField, if_neg hp] at hn
      omega
    have hdata : nCh * channelSize (lengthField p bytes) ≤ (bytes.drop p).length := by
      rw [List.length_drop]
      by_cases hch : nCh = 0
      · simp [hch]
      · rw [packetSize, if_neg (by omega)] at hlen
        omega
    rw [if_neg hlen, if_neg hlen, sliceFrom_ok hp, ok_bind,
      serializedSizePerChannel_eq hn (lengthField_lt p bytes), ok_bind]
    simp only [readChannels_eq (not_lt.mp hmax) hdata, ok_bind]
    simp only [pure, Except.pure, ofBytes, if_neg hn.ne']
  · have hzero : lengthField p bytes = 0 := by omega
    rw [if_neg hn, if_neg (by rw [packetSize, if_pos (.inl hzero)]; omega)]
    simp only [pure, Except.pure, ofBytes, hzero, if_true]

end Packet

end SensorLink.Samples
