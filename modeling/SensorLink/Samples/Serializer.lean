import Mathlib.Data.List.GetD
import SensorLink.Dispatch.Serialize
import SensorLink.Samples.Capacity
import SensorLink.Samples.Quantize

/-!
# `UniformSampleSerializer` of `serializer.rs`

A set of samples goes quantized into the payload buffer of a message. The assertions at compile time are
checked first: that the buffer is longer than the topic header is an argument, the other two end in a panic.
-/

namespace SensorLink.Samples

open SensorLink.Lib SensorLink.Dispatch

/-- `as_topic_data` into a buffer of `k` bytes -/
def Uniform.asTopicDataInto {p nCh max k : ℕ} (x : Uniform p nCh max) (buffer : Buffer k) :
    Attempt SerializeError (List UInt8 × Buffer k) :=
  match h : x.asTopicData buffer.val with
  | .ok (output, bytes) =>
    .ok (output, ⟨bytes, (Uniform.length_asTopicData h).trans buffer.property⟩)
  | .error e => .error e

section Into

variable {p nCh max k : ℕ} {x : Uniform p nCh max} (buffer : Buffer k)

lemma Uniform.asTopicDataInto_ok (h : x.size ≤ maxMessageLen) (hlen : x.size ≤ k) :
    ∃ content : Buffer k, x.asTopicDataInto buffer = .ok (x.encoding, content) ∧
      content.val.take x.size = x.encoding := by
  have heq := Uniform.asTopicData_eq h (hlen.trans_eq buffer.property.symm)
  refine ⟨⟨_, (Uniform.length_asTopicData heq).trans buffer.property⟩, ?_,
    List.take_left' (Uniform.length_encoding x)⟩
  unfold Uniform.asTopicDataInto
  split
  next output bytes h' =>
    cases heq.symm.trans h'
    rfl
  next e h' => cases heq.symm.trans h'

lemma Uniform.asTopicDataInto_full (h : x.size ≤ maxMessageLen) (hlen : k < x.size) :
    x.asTopicDataInto buffer = .error (.err (.bufferFull x.size)) := by
  have heq := Uniform.asTopicData_full h (buffer.property.trans_lt hlen)
  unfold Uniform.asTopicDataInto
  split
  next output bytes h' => cases heq.symm.trans h'
  next e h' =>
    cases heq.symm.trans h'
    rfl

end Into

namespace UniformSampleSerializer

/-- `serializer::SerializeError` -/
inductive SerializeError where
  | bufferTooSmall (provided required : ℕ)
  | topicSerializationFailed (available : ℕ)
  | channelExtendFailed (channelIndex samplesAttempted channelCapacity : ℕ)
  | q15EncodingFailed (availableBytes sampleCount : ℕ)
deriving DecidableEq

/-- `MAX_INPUT_LEN` -/
def maxInputLen (nCh maxOutputLen : ℕ) : ℕ :=
  Uniform.maxNumInputSamples 2 nCh (maxOutputLen - topicHeaderSize)

section Serialize

variable (libm : Libm) {T : Type} (toBytes : T → Option (List UInt8)) {nCh m n : ℕ}

/-- `serialize` -/
def serialize (header_lt : topicHeaderSize < n) (input : UniformSamples Float32 nCh m) (topic : T) :
    Attempt SerializeError (SerializedSendable n) := do
  ensure (m ≤ maxInputLen nCh n)
  ensure (n - topicHeaderSize ≤ maxMessageLen)
  let serialized := BuilderWithTopic.new header_lt topic
  if maxInputLen nCh n < input.len then
    throw (.err (.bufferTooSmall input.len (maxInputLen nCh n)))
  else do
    let q15Input ← Uniform.fromUniform libm 2 input
    let (q15Bytes, content) ← Attempt.mapErr
      (fun _ => .q15EncodingFailed (n - topicHeaderSize) input.len)
      (q15Input.asTopicDataInto serialized.payloadBuffer)
    let payloadLen := q15Bytes.length
    match (serialized.fillPayloadBuffer content).createWithPayloadLength toBytes payloadLen with
    | .ok sendable => pure sendable
    | .error .topicSerializeFailed => throw (.err (.topicSerializationFailed topicHeaderSize))
    | .error .payloadTooLong => throw (.err (.bufferTooSmall (n - topicHeaderSize) payloadLen))

variable {libm toBytes} {header_lt : topicHeaderSize < n} {input : UniformSamples Float32 nCh m} {topic : T}

/-! ### The capacity -/

/-- What is asserted at compile time of a set of `m` samples and a message of `n` bytes -/
structure Admitted (nCh m n : ℕ) : Prop where
  capacity : m ≤ maxInputLen nCh n
  message : n - topicHeaderSize ≤ maxMessageLen

lemma maxInputLen_zero (n : ℕ) : maxInputLen 0 n = 0 := if_pos (.inr rfl)

/-- Fewer samples than the buffer holds need no more than its payload. -/
lemma Admitted.size_le (h : Admitted nCh m n) {count : ℕ} (hpos : 0 < count) (hcount : count ≤ m) :
    0 < nCh ∧ uniformHeaderOverhead + packetSize 2 nCh count ≤ n - topicHeaderSize := by
  have hle : count ≤ maxInputLen nCh n := hcount.trans h.capacity
  have hch : 0 < nCh := by
    rcases Nat.eq_zero_or_pos nCh with rfl | hch
    · rw [maxInputLen_zero] at hle
      omega
    · exact hch
  exact ⟨hch, (Uniform.le_maxNumInputSamples_iff hch hpos).mp hle⟩

lemma Admitted.lt (h : Admitted nCh m n) : m < 256 ^ 2 := by
  rcases Nat.eq_zero_or_pos m with rfl | hpos
  · exact Nat.pow_pos (by decide)
  · obtain ⟨hch, hsize⟩ := h.size_le hpos le_rfl
    exact Uniform.numSamples_lt_of_size hch (hsize.trans h.message)

/-- What is left of `serialize` behind its checks -/
lemma serialize_eq (h : Admitted nCh m n) : serialize libm toBytes header_lt input topic =
    (Attempt.mapErr (fun _ => .q15EncodingFailed (n - topicHeaderSize) input.len)
      ((Uniform.quantized libm h.lt input).asTopicDataInto
        (BuilderWithTopic.new header_lt topic).payloadBuffer) >>= fun (q15Bytes, content) =>
      match buildSendable toBytes header_lt topic content q15Bytes.length with
      | .ok sendable => .ok sendable
      | .error .topicSerializeFailed => .error (.err (.topicSerializationFailed topicHeaderSize))
      | .error .payloadTooLong =>
        .error (.err (.bufferTooSmall (n - topicHeaderSize) q15Bytes.length))) := by
  have hlen : ¬ maxInputLen nCh n < input.len := not_lt.mpr (input.len_le.1.trans h.capacity)
  unfold serialize
  rw [ensure_pos h.capacity, ok_bind, ensure_pos h.message, ok_bind]
  dsimp only
  rw [if_neg hlen, Uniform.fromUniform_eq h.lt]
  rfl

/-! ### What is sent -/

variable (libm) in
/-- The payload is a message with all samples of the set, and they are read back from it. -/
structure Carries (input : UniformSamples Float32 nCh m) (x : Uniform 2 nCh m) (payload : List UInt8) :
    Prop where
  t : x.t = input.t
  fs : x.fs = input.fs
  count : x.data.numSamples = input.len
  samples : ∀ c, x.data.ch c = Q15Channel.ofSamples libm m ((input.ch c).toList.take input.len)
  encoded : payload = x.encoding
  reads : 0 < input.len → Packet.fromBytes 2 nCh m (payload.drop uniformHeaderOverhead) = .ok x.data

lemma canonical_quantized (hp : m < 256 ^ 2) (hch : 0 < nCh) (hlen : 0 < input.len) :
    (Uniform.quantized libm hp input).data.Canonical := by
  refine ⟨fun hzero => ?_, fun c i hi => ?_⟩
  · rcases hzero with hzero | hzero
    · exact absurd hzero hlen.ne'
    · exact absurd hzero hch.ne'
  · have hle : ((input.ch c).toList.take input.len).length ≤ i :=
      (List.length_take_le _ _).trans hi
    simp only [Uniform.quantized, Q15Channel.ofSamples]
    exact List.getD_eq_default _ _ (by rwa [List.length_map])

lemma quantized_size_of_empty (hp : m < 256 ^ 2) (hlen : input.len = 0) :
    (Uniform.quantized libm hp input).size = uniformHeaderOverhead := by
  have hpacket : packetSize 2 nCh input.len = 0 := if_pos (.inl hlen)
  exact congrArg (12 + ·) hpacket

lemma Admitted.quantized_size_le (h : Admitted nCh m n) (hroom : uniformHeaderOverhead ≤ n - topicHeaderSize) :
    (Uniform.quantized libm h.lt input).size ≤ n - topicHeaderSize := by
  rcases Nat.eq_zero_or_pos input.len with hzero | hpos
  · rw [quantized_size_of_empty h.lt hzero]
    exact hroom
  · exact (h.size_le hpos input.len_le.1).2

lemma serialize_ok (h : Admitted nCh m n) (hroom : uniformHeaderOverhead ≤ n - topicHeaderSize)
    (htopic : FitsHeader toBytes topic) :
    ∃ s x, serialize libm toBytes header_lt input topic = .ok s ∧
      Carries libm input x s.payloadBytes := by
  have hsize : (Uniform.quantized libm h.lt input).size ≤ n - topicHeaderSize := h.quantized_size_le hroom
  obtain ⟨content, hinto, htake⟩ := Uniform.asTopicDataInto_ok
    (BuilderWithTopic.new header_lt topic).payloadBuffer (hsize.trans h.message) hsize
  obtain ⟨s, hs⟩ : ∃ s, buildSendable toBytes header_lt topic content
      (Uniform.quantized libm h.lt input).encoding.length = .ok s :=
    (buildSendable_ok_iff ((Uniform.length_encoding _).trans_le hsize)).mpr htopic
  have hpayload : s.payloadBytes = (Uniform.quantized libm h.lt input).encoding := by
    rw [buildSendable_payload hs, Uniform.length_encoding, htake]
  refine ⟨s, Uniform.quantized libm h.lt input, ?_, rfl, rfl, rfl, fun c => rfl, hpayload, fun hlen => ?_⟩
  · rw [serialize_eq h, hinto]
    simp only [Attempt.mapErr, ok_bind, hs]
  · rw [hpayload]
    have hch : 0 < nCh := (h.size_le hlen input.len_le.1).1
    exact (congrArg _ (Uniform.drop_encoding _)).trans
      ((Packet.fromBytes_encoding _).mpr (canonical_quantized h.lt hch hlen))

/-- A buffer without room for the numbers in front of the packet takes not even a set without samples. -/
lemma serialize_small (h : Admitted nCh m n) (hroom : n - topicHeaderSize < uniformHeaderOverhead) :
    serialize libm toBytes header_lt input topic =
      .error (.err (.q15EncodingFailed (n - topicHeaderSize) 0)) := by
  have hempty : m = 0 := by
    rcases Nat.eq_zero_or_pos m with hzero | hpos
    · exact hzero
    · have hsize := (h.size_le hpos le_rfl).2
      omega
  have hlen : input.len = 0 := Nat.le_zero.mp (input.len_le.1.trans_eq hempty)
  have hsize : (Uniform.quantized libm h.lt input).size = uniformHeaderOverhead :=
    quantized_size_of_empty h.lt hlen
  have hfull := Uniform.asTopicDataInto_full (BuilderWithTopic.new header_lt topic).payloadBuffer
    (hsize.trans_le (by decide)) (hroom.trans_eq hsize.symm)
  rw [serialize_eq h, hfull, hlen]
  rfl

/-! ### The capacity of a packet -/

/-- **The capacity is exact.** `max_num_input_samples` is the largest number of samples whose layout fits in
the buffer; as no message is longer than `MAX_MESSAGE_LEN`, the largest number of samples of a message that
fits is the one for at most as many bytes. A set that `MAX_INPUT_LEN` admits is sent with all its samples, if
the payload buffer has room for the numbers in front of the packet. -/
theorem packet_capacity :
    (∀ nCh b, 0 < nCh →
      IsGreatest {n | n = 0 ∨ uniformHeaderOverhead + packetSize 2 nCh n ≤ b}
          (Uniform.maxNumInputSamples 2 nCh b) ∧
        IsGreatest {n | n = 0 ∨ Uniform.Occupies 2 nCh n b}
          (Uniform.maxNumInputSamples 2 nCh (min b maxMessageLen))) ∧
    ∀ (libm : Libm) (T : Type) (toBytes : T → Option (List UInt8)) (nCh m n : ℕ)
      (header_lt : topicHeaderSize < n) (input : UniformSamples Float32 nCh m) (topic : T),
      n - topicHeaderSize ≤ maxMessageLen → uniformHeaderOverhead ≤ n - topicHeaderSize →
      m ≤ maxInputLen nCh n → FitsHeader toBytes topic →
      ∃ s x, serialize libm toBytes header_lt input topic = .ok s ∧
        Carries libm input x s.payloadBytes := by
  refine ⟨fun nCh b hch => ?_, ?_⟩
  · exact ⟨Uniform.isGreatest_maxNumInputSamples hch b, Uniform.isGreatest_occupies hch b⟩
  · intro libm T toBytes nCh m n header_lt input topic hmessage hroom hcapacity htopic
    exact serialize_ok ⟨hcapacity, hmessage⟩ hroom htopic

/-- The functions of `libm`, as Lean has them -/
def sampleLibm : Libm where
  fabsf := Float32.abs
  log2f := Float32.log2
  ceilf := Float32.ceil
  roundf := Float32.round
  powf := Float32.pow

/-- Two samples on one channel -/
def sampleSet : UniformSamples Float32 1 2 := ⟨1000000, 0x447A0000, fun _ => ⟨[0.5, 3.25], le_rfl⟩⟩

/-- A topic of one byte -/
def oneByte (topic : UInt8) : Option (List UInt8) := some [topic]

/-- Three channels in 100 bytes; and 27 bytes, which are just enough for two samples on one channel -/
theorem packet_capacity_sample :
    IsGreatest {n | n = 0 ∨ Uniform.Occupies 2 3 n 100} 13 ∧
      ∃ s x, serialize sampleLibm oneByte (by decide : topicHeaderSize < 27) sampleSet 3 = .ok s ∧
        Carries sampleLibm sampleSet x s.payloadBytes := by
  refine ⟨(packet_capacity.1 3 100 (by decide)).2, ?_⟩
  exact packet_capacity.2 _ _ _ _ _ _ _ _ _ (by decide) (by decide) (by decide) ⟨[3], rfl, by decide⟩

/-- A set without samples -/
def emptySet : UniformSamples Float32 1 0 := ⟨1000000, 0x447A0000, fun _ => HVec.empty⟩

/-- A buffer of 131088 bytes is said to hold 65536 samples, which no message counts; one of 1502 bytes is said
to hold 743, which `as_topic_data` never writes; and a payload buffer of 8 bytes does not even take a set
without samples, although `MAX_INPUT_LEN` admits it. -/
theorem packet_capacity_fails :
    (Uniform.maxNumInputSamples 2 1 131088 = 65536 ∧
      ∀ max (x : Uniform 2 1 max), x.data.numSamples ≠ 65536) ∧
    (Uniform.maxNumInputSamples 2 1 1502 = 743 ∧
      ∀ max (x : Uniform 2 1 max), x.data.numSamples = 743 →
        ∀ buffer, x.asTopicData buffer = .error .panic) ∧
    16 - topicHeaderSize ≤ maxMessageLen ∧ 0 ≤ maxInputLen 1 16 ∧ FitsHeader oneByte 3 ∧
      ∀ libm, serialize libm oneByte (by decide : topicHeaderSize < 16) emptySet 3 =
        .error (.err (.q15EncodingFailed 8 0)) := by
  refine ⟨⟨by decide, fun max x hx => ?_⟩, ⟨by decide, fun max x hx => ?_⟩, by decide, by decide,
    ⟨[3], rfl, by decide⟩, fun libm => serialize_small ⟨by decide, by decide⟩ (by decide)⟩
  · exact absurd (x.data.numSamples_lt.trans_eq rfl) (by rw [hx]; decide)
  · apply Uniform.asTopicData_panic
    rw [Uniform.size, hx]
    decide

end Serialize

end UniformSampleSerializer

end SensorLink.Samples
