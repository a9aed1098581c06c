import SensorLink.Lib.Bytes

/-!
# Sendables of `serialize.rs`, and their way through the dispatch store

Header and payload of a message share one buffer of `n` bytes, split behind the eight bytes of the header.
The serialization of a topic (`postcard`) is a parameter.
-/

namespace SensorLink.Dispatch

open SensorLink.Lib

/-- `TOPIC_HEADER_SIZE` -/
def topicHeaderSize : ℕ := 8

/-- `[u8; MAX_OUTPUT_LEN]` -/
abbrev Buffer (n : ℕ) := {l : List UInt8 // l.length = n}

/-- `[0; MAX_OUTPUT_LEN]` -/
def Buffer.zeros (n : ℕ) : Buffer n := ⟨List.replicate n 0, List.length_replicate⟩

inductive LengthError where
  | tooLong
  | tooShort
deriving DecidableEq

inductive BuildError where
  | topicSerializeFailed
  | payloadTooLong
deriving DecidableEq

/-- `SerializedSendable`; the payload is asserted to be in the buffer. -/
structure SerializedSendable (n : ℕ) where
  bytes : Buffer n
  payloadLen : ℕ
  payload_le : topicHeaderSize + payloadLen ≤ n

/-! ### The header -/

section Header

variable {T : Type} (toBytes : T → Option (List UInt8)) (fromBytes : List UInt8 → Option T)

/-- `serialize_topic_header`: what it leaves in the buffer. `postcard::to_slice` writes the topic to its
start. -/
def serializeTopicHeader (topic : T) {k : ℕ} (buffer : Buffer k) : Except BuildError (Buffer k) :=
  match toBytes topic with
  | none => .error .topicSerializeFailed
  | some bytes =>
    if hfit : bytes.length ≤ k then
      .ok ⟨(copyInto buffer.val 0 bytes).map (· ^^^ 0xA5), by
        rw [List.length_map, length_copyInto (by rw [buffer.property]; omega), buffer.property]⟩
    else .error .topicSerializeFailed

/-- `deserialize_topic_header` -/
def deserializeTopicHeader (buffer : List UInt8) : Option T := fromBytes (buffer.map (· ^^^ 0xA5))

end Header

/-! ### Builders -/

/-- `Builder` -/
structure Builder (n : ℕ) where
  bytes : Buffer n

/-- `Builder::new` -/
def Builder.new (n : ℕ) : Builder n := ⟨Buffer.zeros n⟩

/-- `create_with_total_length` -/
def Builder.createWithTotalLength {n : ℕ} (b : Builder n) (totalLen : ℕ) :
    Except LengthError (SerializedSendable n) :=
  if hlong : n < totalLen then .error .tooLong
  else if hshort : totalLen < topicHeaderSize then .error .tooShort
  else .ok ⟨b.bytes, totalLen - topicHeaderSize, by omega⟩

/-- `BuilderWithTopic`; that its buffer is longer than a header is asserted at compile time. -/
structure BuilderWithTopic (n : ℕ) (T : Type) where
  bytes : Buffer n
  topic : T
  header_lt : topicHeaderSize < n

namespace BuilderWithTopic

variable {n : ℕ} {T : Type}

/-- `BuilderWithTopic::new` -/
def new (header_lt : topicHeaderSize < n) (topic : T) : BuilderWithTopic n T :=
  ⟨Buffer.zeros n, topic, header_lt⟩

/-- `self.bytes[..TOPIC_HEADER_SIZE]` -/
def headerBuffer (b : BuilderWithTopic n T) : Buffer topicHeaderSize :=
  ⟨b.bytes.val.take topicHeaderSize, by
    rw [List.length_take, b.bytes.property, Nat.min_eq_left b.header_lt.le]⟩

/-- `payload_buffer` -/
def payloadBuffer (b : BuilderWithTopic n T) : Buffer (n - topicHeaderSize) :=
  ⟨b.bytes.val.drop topicHeaderSize, by rw [List.length_drop, b.bytes.property]⟩

/-- The builder with the slice `payload_buffer` filled with `content` -/
def fillPayloadBuffer (b : BuilderWithTopic n T) (content : Buffer (n - topicHeaderSize)) :
    BuilderWithTopic n T where
  bytes := ⟨b.headerBuffer.val ++ content.val, by
    rw [List.length_append, b.headerBuffer.property, content.property,
      Nat.add_sub_cancel' b.header_lt.le]⟩
  topic := b.topic
  header_lt := b.header_lt

/-- `create_with_payload_length` -/
def createWithPayloadLength (toBytes : T → Option (List UInt8)) (b : BuilderWithTopic n T)
    (payloadLen : ℕ) : Except BuildError (SerializedSendable n) :=
  if hlong : n - topicHeaderSize < payloadLen then .error .payloadTooLong
  else do
    let header ← serializeTopicHeader toBytes b.topic b.headerBuffer
    pure {
      bytes := ⟨header.val ++ b.bytes.val.drop topicHeaderSize, by
        rw [List.length_append, header.property, List.length_drop, b.bytes.property,
          Nat.add_sub_cancel' b.header_lt.le]⟩
      payloadLen := payloadLen
      payload_le := by
        have hlt := b.header_lt
        omega }

end BuilderWithTopic

/-! ### Sendables -/

namespace SerializedSendable

variable {n : ℕ} {T : Type}

/-- `try_from_slice` -/
def tryFromSlice (n : ℕ) (slice : List UInt8) : Except LengthError (SerializedSendable n) :=
  if hlong : n < slice.length then .error .tooLong
  else if hshort : slice.length < topicHeaderSize then .error .tooShort
  else .ok {
    bytes := ⟨copyInto (Buffer.zeros n).val 0 slice, by
      rw [length_copyInto (by rw [(Buffer.zeros n).property]; omega), (Buffer.zeros n).property]⟩
    payloadLen := slice.length - topicHeaderSize
    payload_le := by omega }

/-- `as_slice` -/
def asSlice (s : SerializedSendable n) : List UInt8 := s.bytes.val.take (topicHeaderSize + s.payloadLen)

/-- `payload_bytes` -/
def payloadBytes (s : SerializedSendable n) : List UInt8 :=
  (s.bytes.val.take (topicHeaderSize + s.payloadLen)).drop topicHeaderSize

/-- `header_bytes` -/
def headerBytes (s : SerializedSendable n) : List UInt8 := s.bytes.val.take topicHeaderSize

/-- `topic` -/
def topic (fromBytes : List UInt8 → Option T) (s : SerializedSendable n) : Option T :=
  deserializeTopicHeader fromBytes s.headerBytes

end SerializedSendable

/-! ### The store -/

/-- What `peek_event` and `peek_sensor_data` return: nothing, a message, or an error after which the item
is skipped -/
inductive PeekedSendable (n : ℕ) where
  | nothing
  | item (s : SerializedSendable n)
  | skipped (e : LengthError)

/-- `peek_event`, `peek_sensor_data`, where `peek_next` has read a length and filled the buffer of the
builder -/
def peekSendable {n : ℕ} : Option (ℕ × Builder n) → PeekedSendable n
  | none => .nothing
  | some (len, buffer) =>
    match buffer.createWithTotalLength len with
    | .ok s => .item s
    | .error e => .skipped e

/-! ### The layout -/

namespace SerializedSendable

variable {n m : ℕ} {T : Type} {fromBytes : List UInt8 → Option T}

lemma length_asSlice (s : SerializedSendable n) : s.asSlice.length = topicHeaderSize + s.payloadLen := by
  rw [asSlice, List.length_take, s.bytes.property, Nat.min_eq_left s.payload_le]

lemma take_asSlice (s : SerializedSendable n) : s.asSlice.take topicHeaderSize = s.headerBytes := by
  rw [asSlice, List.take_take, Nat.min_eq_left (Nat.le_add_right _ _)]
  rfl

/-- A message is read from the bytes of another one, whatever follows them. -/
lemma same_of_bytes {s : SerializedSendable n} {s' : SerializedSendable m} {trailing : List UInt8}
    (hbytes : s'.bytes.val = s.asSlice ++ trailing) (hlen : s'.payloadLen = s.payloadLen) :
    s'.headerBytes = s.headerBytes ∧ s'.payloadBytes = s.payloadBytes := by
  have hlength := length_asSlice s
  constructor
  · rw [headerBytes, hbytes, List.take_append_of_le_length (by omega), take_asSlice]
  · rw [payloadBytes, hbytes, hlen, ← hlength, List.take_left]
    rfl

/-- The message has the topic, the header and the payload. -/
structure Reads (fromBytes : List UInt8 → Option T) (s : SerializedSendable n) (topic : T)
    (header payload : List UInt8) : Prop where
  topic : s.topic fromBytes = some topic
  header : s.headerBytes = header
  payload : s.payloadBytes = payload

lemma Reads.of_bytes {s : SerializedSendable n} {s' : SerializedSendable m} {topic : T}
    {payload : List UInt8} (h : s.Reads fromBytes topic s.headerBytes payload) (trailing : List UInt8)
    (hbytes : s'.bytes.val = s.asSlice ++ trailing) (hlen : s'.payloadLen = s.payloadLen) :
    s'.Reads fromBytes topic s.headerBytes payload := by
  obtain ⟨hheader, hpayload⟩ := same_of_bytes hbytes hlen
  refine ⟨?_, hheader, hpayload.trans h.payload⟩
  rw [SerializedSendable.topic, hheader]
  exact h.topic

/-- Read back into a buffer of the store. -/
lemma Reads.peek {s : SerializedSendable n} {topic : T} {payload trailing : List UInt8}
    (h : s.Reads fromBytes topic s.headerBytes payload) {buffer : Builder m}
    (hbuffer : buffer.bytes.val = s.asSlice ++ trailing) :
    ∃ s', peekSendable (some (s.asSlice.length, buffer)) = .item s' ∧
      s'.Reads fromBytes topic s.headerBytes payload := by
  have hlength := length_asSlice s
  have hm := buffer.bytes.property
  rw [hbuffer, List.length_append] at hm
  have hcreate : buffer.createWithTotalLength s.asSlice.length =
      .ok ⟨buffer.bytes, s.asSlice.length - topicHeaderSize, by omega⟩ := by
    rw [Builder.createWithTotalLength, dif_neg (by omega), dif_neg (by omega)]
  refine ⟨_, by rw [peekSendable, hcreate], h.of_bytes trailing hbuffer ?_⟩
  show s.asSlice.length - topicHeaderSize = s.payloadLen
  omega

/-- Created again from the slice. -/
lemma Reads.tryFromSlice {s : SerializedSendable n} {topic : T} {payload : List UInt8}
    (h : s.Reads fromBytes topic s.headerBytes payload) (hm : s.asSlice.length ≤ m) :
    ∃ s', SerializedSendable.tryFromSlice m s.asSlice = .ok s' ∧
      s'.Reads fromBytes topic s.headerBytes payload := by
  have hlength := length_asSlice s
  refine ⟨_, by rw [SerializedSendable.tryFromSlice, dif_neg (by omega), dif_neg (by omega)], ?_⟩
  apply h.of_bytes ((List.replicate m 0).drop s.asSlice.length)
  · simp [copyInto, Buffer.zeros]
  · show s.asSlice.length - topicHeaderSize = s.payloadLen
    omega

end SerializedSendable

/-! ### Serialized messages -/

section Serialized

variable {n : ℕ} {T : Type} {toBytes : T → Option (List UInt8)} {fromBytes : List UInt8 → Option T}

/-- A topic is read from its serialization, whatever follows it. -/
def RoundTrips (toBytes : T → Option (List UInt8)) (fromBytes : List UInt8 → Option T) : Prop :=
  ∀ topic bytes rest, toBytes topic = some bytes → fromBytes (bytes ++ rest) = some topic

/-- The serialization of the topic fits in the header. -/
def FitsHeader (toBytes : T → Option (List UInt8)) (topic : T) : Prop :=
  ∃ bytes, toBytes topic = some bytes ∧ bytes.length ≤ topicHeaderSize

lemma map_xor_xor (l : List UInt8) (b : UInt8) : (l.map (· ^^^ b)).map (· ^^^ b) = l := by
  rw [List.map_map]
  apply List.map_id''
  intro x
  show (x ^^^ b) ^^^ b = x
  rw [UInt8.xor_assoc, UInt8.xor_self, UInt8.xor_zero]

lemma deserializeTopicHeader_serialize (hround : RoundTrips toBytes fromBytes) {topic : T} {k : ℕ}
    {buffer header : Buffer k} (h : serializeTopicHeader toBytes topic buffer = .ok header) :
    deserializeTopicHeader fromBytes header.val = some topic := by
  unfold serializeTopicHeader at h
  cases hbytes : toBytes topic with
  | none => simp [hbytes] at h
  | some bytes =>
    simp only [hbytes] at h
    split at h
    · cases h
      rw [deserializeTopicHeader, map_xor_xor, copyInto, List.take_zero, List.nil_append]
      exact hround topic bytes _ hbytes
    · cases h

lemma serializeTopicHeader_ok_iff {topic : T} (buffer : Buffer topicHeaderSize) :
    (∃ header, serializeTopicHeader toBytes topic buffer = .ok header) ↔ FitsHeader toBytes topic := by
  unfold serializeTopicHeader FitsHeader
  cases hbytes : toBytes topic with
  | none => simp
  | some bytes =>
    by_cases hfit : bytes.length ≤ topicHeaderSize
    · simp [hfit]
    · simp [hfit]

variable {header_lt : topicHeaderSize < n} {topic : T} {content : Buffer (n - topicHeaderSize)}
variable {payloadLen : ℕ} {s : SerializedSendable n}

/-- A topic serialized into a message, with the first `payloadLen` bytes of `content` for its payload -/
def buildSendable (toBytes : T → Option (List UInt8)) (header_lt : topicHeaderSize < n) (topic : T)
    (content : Buffer (n - topicHeaderSize)) (payloadLen : ℕ) : Except BuildError (SerializedSendable n) :=
  ((BuilderWithTopic.new header_lt topic).fillPayloadBuffer content).createWithPayloadLength toBytes payloadLen

/-- The bytes of a message are its header and the content of the payload buffer. -/
lemma buildSendable_ok (h : buildSendable toBytes header_lt topic content payloadLen = .ok s) :
    ∃ buffer header : Buffer topicHeaderSize, serializeTopicHeader toBytes topic buffer = .ok header ∧
      s.bytes.val = header.val ++ content.val ∧ s.payloadLen = payloadLen := by
  set b := (BuilderWithTopic.new header_lt topic).fillPayloadBuffer content
  have hdrop : b.bytes.val.drop topicHeaderSize = content.val :=
    List.drop_left' (BuilderWithTopic.new header_lt topic).headerBuffer.property
  change b.createWithPayloadLength toBytes payloadLen = .ok s at h
  unfold BuilderWithTopic.createWithPayloadLength at h
  split at h
  · cases h
  · cases hheader : serializeTopicHeader toBytes b.topic b.headerBuffer with
    | error e =>
      rw [hheader] at h
      cases h
    | ok header =>
      rw [hheader] at h
      cases h
      refine ⟨b.headerBuffer, header, hheader, ?_, rfl⟩
      show header.val ++ b.bytes.val.drop topicHeaderSize = _
      rw [hdrop]

lemma buildSendable_ok_iff (hlen : payloadLen ≤ n - topicHeaderSize) :
    (∃ s, buildSendable toBytes header_lt topic content payloadLen = .ok s) ↔ FitsHeader toBytes topic := by
  set b := (BuilderWithTopic.new header_lt topic).fillPayloadBuffer content
  rw [← serializeTopicHeader_ok_iff b.headerBuffer]
  change (∃ s, b.createWithPayloadLength toBytes payloadLen = .ok s) ↔
    ∃ header, serializeTopicHeader toBytes b.topic b.headerBuffer = .ok header
  unfold BuilderWithTopic.createWithPayloadLength
  rw [dif_neg (by omega)]
  cases serializeTopicHeader toBytes b.topic b.headerBuffer with
  | error e =>
    constructor
    · rintro ⟨s, hs⟩
      cases hs
    · rintro ⟨header, hheader⟩
      cases hheader
  | ok header => exact iff_of_true ⟨_, rfl⟩ ⟨header, rfl⟩

lemma buildSendable_payload (h : buildSendable toBytes header_lt topic content payloadLen = .ok s) :
    s.payloadBytes = content.val.take payloadLen := by
  obtain ⟨buffer, header, -, hbytes, hlen⟩ := buildSendable_ok h
  have htake : header.val.take (topicHeaderSize + payloadLen) = header.val :=
    List.take_of_length_le (by rw [header.property]; omega)
  rw [SerializedSendable.payloadBytes, hbytes, hlen, List.take_append, htake,
    List.drop_left' header.property, header.property, Nat.add_sub_cancel_left]

lemma buildSendable_reads (hround : RoundTrips toBytes fromBytes)
    (h : buildSendable toBytes header_lt topic content payloadLen = .ok s) :
    s.Reads fromBytes topic s.headerBytes (content.val.take payloadLen) := by
  obtain ⟨buffer, header, hheader, hbytes, hlen⟩ := buildSendable_ok h
  have htake : s.headerBytes = header.val := by
    rw [SerializedSendable.headerBytes, hbytes, List.take_left' header.property]
  refine ⟨?_, rfl, buildSendable_payload h⟩
  rw [SerializedSendable.topic, htake]
  exact deserializeTopicHeader_serialize hround hheader

/-- **Stored messages survive.** For every topic and every payload that the buffer has room for a message is
built if and only if the topic fits in the header. Its bytes, read back into a buffer with anything behind
them or taken as a slice, are a message with the same topic, header and payload. -/
theorem stored_sendable_survives (toBytes : T → Option (List UInt8)) (fromBytes : List UInt8 → Option T)
    (hround : RoundTrips toBytes fromBytes) (header_lt : topicHeaderSize < n) (topic : T)
    (content : Buffer (n - topicHeaderSize)) (payloadLen : ℕ) (hlen : payloadLen ≤ n - topicHeaderSize) :
    ((∃ s, buildSendable toBytes header_lt topic content payloadLen = .ok s) ↔ FitsHeader toBytes topic) ∧
      ∀ s, buildSendable toBytes header_lt topic content payloadLen = .ok s →
        s.Reads fromBytes topic s.headerBytes (content.val.take payloadLen) ∧
          (∀ m trailing (buffer : Builder m), buffer.bytes.val = s.asSlice ++ trailing →
            ∃ s', peekSendable (some (s.asSlice.length, buffer)) = .item s' ∧
              s'.Reads fromBytes topic s.headerBytes (content.val.take payloadLen)) ∧
          ∀ m, s.asSlice.length ≤ m → ∃ s', SerializedSendable.tryFromSlice m s.asSlice = .ok s' ∧
            s'.Reads fromBytes topic s.headerBytes (content.val.take payloadLen) := by
  refine ⟨buildSendable_ok_iff hlen, ?_⟩
  intro s h
  have hreads := buildSendable_reads hround h
  exact ⟨hreads, fun m trailing buffer hbuffer => hreads.peek hbuffer, fun m hm => hreads.tryFromSlice hm⟩

/-- A read buffer of 16 bytes with a message of ten -/
def bufferWithMessage : Builder 16 :=
  ⟨⟨[0xA6, 0xA5, 0xA5, 0xA5, 0xA5, 0xA5, 0xA5, 0xA5, 1, 2] ++ [9, 9, 9, 9, 9, 9], rfl⟩⟩

/-- A topic of one byte and a payload of two, read back into the buffer. -/
theorem stored_sendable_survives_byte : ∃ s : SerializedSendable 12,
    buildSendable (fun topic : UInt8 => some [topic]) (by decide) 3 ⟨[1, 2, 3, 4], rfl⟩ 2 = .ok s ∧
      s.asSlice = [0xA6, 0xA5, 0xA5, 0xA5, 0xA5, 0xA5, 0xA5, 0xA5, 1, 2] ∧
      ∃ s', peekSendable (some (s.asSlice.length, bufferWithMessage)) = .item s' ∧
        s'.Reads List.head? 3 s.headerBytes [1, 2] := by
  have hround : RoundTrips (fun topic : UInt8 => some [topic]) List.head? := by
    rintro topic bytes rest ⟨⟩
    rfl
  have hsurvives := stored_sendable_survives (n := 12) _ _ hround (by decide) 3 ⟨[1, 2, 3, 4], rfl⟩ 2
    (by decide)
  refine ⟨_, rfl, by decide, ?_⟩
  exact (hsurvives.2 _ rfl).2.1 16 [9, 9, 9, 9, 9, 9] bufferWithMessage rfl

end Serialized

end SensorLink.Dispatch
