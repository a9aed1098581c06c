import SensorLink.Samples.RoundTrip

/-!
# Uniform sample messages

`Uniform` of `samples/q15.rs` and `samples/q15xl.rs`: a timestamp, a sample frequency and a packet. The
frequency is the bit pattern of an `f32`. As topic data, the whole message is returned, with the length
field of the packet.
-/

namespace SensorLink.Samples

open SensorLink.Lib

/-! ### Numbers of the header -/

/-- `i64::to_le_bytes` -/
def i64ToLeBytes (v : Int64) : List UInt8 := leBytes 8 v.toUInt64.toNat

/-- `i64::from_le_bytes` -/
def i64FromLeBytes (bytes : List UInt8) : Int64 := (UInt64.ofNat (ofLeBytes bytes)).toInt64

/-- `f32::to_le_bytes` -/
def f32ToLeBytes (bits : UInt32) : List UInt8 := leBytes 4 bits.toNat

/-- `f32::from_le_bytes` -/
def f32FromLeBytes (bytes : List UInt8) : UInt32 := UInt32.ofNat (ofLeBytes bytes)

/-- `f32::is_nan` -/
def f32IsNan (bits : UInt32) : Bool := 0x7F800000 < bits.toNat % 2 ^ 31

/-- `fs <= 0.0`: no number, a zero of either sign, or a set sign bit -/
def f32LeZero (bits : UInt32) : Bool :=
  !f32IsNan bits && (bits.toNat % 2 ^ 31 = 0 || 2 ^ 31 ≤ bits.toNat)

@[simp]
lemma length_i64ToLeBytes (v : Int64) : (i64ToLeBytes v).length = 8 := length_leBytes 8 _

@[simp]
lemma length_f32ToLeBytes (bits : UInt32) : (f32ToLeBytes bits).length = 4 := length_leBytes 4 _

@[simp]
lemma i64FromLeBytes_toLeBytes (v : Int64) : i64FromLeBytes (i64ToLeBytes v) = v := by
  have h : v.toUInt64.toNat < 256 ^ 8 := v.toUInt64.toNat_lt
  rw [i64FromLeBytes, i64ToLeBytes, ofLeBytes_leBytes, Nat.mod_eq_of_lt h, UInt64.ofNat_toNat]
  rfl

@[simp]
lemma f32FromLeBytes_toLeBytes (bits : UInt32) : f32FromLeBytes (f32ToLeBytes bits) = bits := by
  have h : bits.toNat < 256 ^ 4 := bits.toNat_lt
  rw [f32FromLeBytes, f32ToLeBytes, ofLeBytes_leBytes, Nat.mod_eq_of_lt h, UInt32.ofNat_toNat]

lemma i64ToLeBytes_fromLeBytes {bytes : List UInt8} (h : bytes.length = 8) :
    i64ToLeBytes (i64FromLeBytes bytes) = bytes := by
  have hlt : ofLeBytes bytes < UInt64.size := by simpa [h] using ofLeBytes_lt bytes
  have hnat : (i64FromLeBytes bytes).toUInt64.toNat = ofLeBytes bytes := UInt64.toNat_ofNat_of_lt hlt
  rw [i64ToLeBytes, hnat, leBytes_ofLeBytes h]

lemma f32ToLeBytes_fromLeBytes {bytes : List UInt8} (h : bytes.length = 4) :
    f32ToLeBytes (f32FromLeBytes bytes) = bytes := by
  have hlt : ofLeBytes bytes < UInt32.size := by simpa [h] using ofLeBytes_lt bytes
  have hnat : (f32FromLeBytes bytes).toNat = ofLeBytes bytes := UInt32.toNat_ofNat_of_lt hlt
  rw [f32ToLeBytes, hnat, leBytes_ofLeBytes h]

/-! ### The message -/

/-- `MAX_MESSAGE_LEN` -/
def maxMessageLen : ℕ := 1500

/-- `UNIFORM_HEADER_OVERHEAD` -/
def uniformHeaderOverhead : ℕ := 8 + 4

/-- `Uniform<Q15>`, `Uniform<Q15XL>` -/
structure Uniform (p nCh max : ℕ) where
  t : Int64
  fs : UInt32
  data : Packet p nCh max

instance {p nCh max : ℕ} : DecidableEq (Uniform p nCh max) := fun x y =>
  decidable_of_iff (x.t = y.t ∧ x.fs = y.fs ∧ x.data = y.data) (by cases x; cases y; simp)

/-- `samples::ParseError` -/
inductive ParseError where
  | deserialize (message : String)
  | invalid
deriving DecidableEq

/-- The `Display` of `DeserializeError` -/
def DeserializeError.display : DeserializeError → String
  | .bufferUnexpectedEnd expected =>
    "Buffer too small (expected " ++ toString expected ++ " bytes)"
  | .tooManySamples actual maxAllowed =>
    "Too many samples (" ++ toString actual ++ " > " ++ toString maxAllowed ++ ")"

/-- `Uniform::_serialized_size` -/
def uniformSizeOf {ε : Type} (p nCh n : ℕ) : Attempt ε ℕ := do
  let packet ← serializedSizeOf p nCh n
  ensure (uniformHeaderOverhead + packet ≤ maxMessageLen)
  pure (uniformHeaderOverhead + packet)

namespace Uniform

variable {p nCh max : ℕ}

/-- `verify` -/
def verify (x : Uniform p nCh max) : Bool := 0 < x.t && !(f32LeZero x.fs || f32IsNan x.fs)

/-- `from_topic_data` -/
def fromTopicData (p nCh max : ℕ) (bytes : List UInt8) :
    Attempt ParseError (Uniform p nCh max) := do
  let minLen ← uniformSizeOf p nCh 0
  if bytes.length < minLen then throw (.err (.deserialize "Buffer too small"))
  else do
    let t ← slice bytes 0 8
    let fs ← slice bytes 8 12
    let packet ← sliceFrom bytes 12
    let data ← Attempt.mapErr (fun err => .deserialize err.display)
      (Packet.fromBytes p nCh max packet)
    let result : Uniform p nCh max := ⟨i64FromLeBytes t, f32FromLeBytes fs, data⟩
    if result.verify then pure result else throw (.err .invalid)

/-- `as_topic_data`: the slice it returns, and the buffer -/
def asTopicData (x : Uniform p nCh max) (bytes : List UInt8) :
    Attempt SerializeError (List UInt8 × List UInt8) := do
  let outputLen ← uniformSizeOf p nCh x.data.numSamples
  if bytes.length < outputLen then throw (.err (.bufferFull outputLen))
  else do
    let output ← slice bytes 0 outputLen
    let output ← copyFromSlice output 0 8 (i64ToLeBytes x.t)
    let output ← copyFromSlice output 8 12 (f32ToLeBytes x.fs)
    let (header, packet) ← splitAt output 12
    -- the slice that `to_bytes` returns is not used
    let (_, packet) ← x.data.toBytes packet
    pure (header ++ packet, header ++ packet ++ bytes.drop outputLen)

/-! ### The wire format -/

/-- The bytes of the message -/
def size (x : Uniform p nCh max) : ℕ := 12 + packetSize p nCh x.data.numSamples

/-- The message on the wire -/
def encoding (x : Uniform p nCh max) : List UInt8 :=
  i64ToLeBytes x.t ++ f32ToLeBytes x.fs ++ x.data.encoding

lemma length_encoding (x : Uniform p nCh max) : x.encoding.length = x.size := by
  simp only [encoding, size, List.length_append, length_i64ToLeBytes, length_f32ToLeBytes,
    Packet.length_encoding]

lemma drop_encoding (x : Uniform p nCh max) : x.encoding.drop 12 = x.data.encoding :=
  List.drop_left' (by simp)

lemma uniformSizeOf_eq {ε : Type} {n : ℕ} (hp : n < 256 ^ p)
    (h : 12 + packetSize p nCh n ≤ maxMessageLen) :
    (uniformSizeOf p nCh n : Attempt ε ℕ) = .ok (12 + packetSize p nCh n) := by
  unfold uniformSizeOf uniformHeaderOverhead
  rw [serializedSizeOf_eq hp, ok_bind, ensure_pos h]
  rfl

lemma uniformSizeOf_panic {ε : Type} {n : ℕ} (hp : n < 256 ^ p)
    (h : ¬ 12 + packetSize p nCh n ≤ maxMessageLen) :
    (uniformSizeOf p nCh n : Attempt ε ℕ) = .error .panic := by
  unfold uniformSizeOf ensure
  rw [serializedSizeOf_eq hp, ok_bind]
  exact congrArg (· >>= _) (if_neg h)

lemma asTopicData_panic {x : Uniform p nCh max} (h : ¬ x.size ≤ maxMessageLen)
    (bytes : List UInt8) : x.asTopicData bytes = .error .panic := by
  unfold asTopicData
  rw [uniformSizeOf_panic x.data.numSamples_lt h]
  rfl

lemma asTopicData_eq {x : Uniform p nCh max} (h : x.size ≤ maxMessageLen) {bytes : List UInt8}
    (hlen : x.size ≤ bytes.length) :
    x.asTopicData bytes = .ok (x.encoding, x.encoding ++ bytes.drop x.size) := by
  have hsize : x.size = 12 + packetSize p nCh x.data.numSamples := rfl
  let output := bytes.take x.size
  have houtput : output.length = x.size := by
    rw [List.length_take]
    omega
  let withT := copyInto output 0 (i64ToLeBytes x.t)
  have hwithT : withT.length = x.size := by
    rw [length_copyInto (by rw [length_i64ToLeBytes]; omega), houtput]
  let withFs := copyInto withT 8 (f32ToLeBytes x.fs)
  have hwithFs : withFs.length = x.size := by
    rw [length_copyInto (by rw [length_f32ToLeBytes]; omega), hwithT]
  have htake8 : withT.take 8 = i64ToLeBytes x.t := by
    have h8 : withT.take (0 + (i64ToLeBytes x.t).length) = output.take 0 ++ i64ToLeBytes x.t :=
      take_copyInto (Nat.zero_le _)
    simpa using h8
  have htake12 : withFs.take 12 = i64ToLeBytes x.t ++ f32ToLeBytes x.fs := by
    have h12 : withFs.take (8 + (f32ToLeBytes x.fs).length) = withT.take 8 ++ f32ToLeBytes x.fs :=
      take_copyInto (by omega)
    rwa [htake8, length_f32ToLeBytes] at h12
  have hpacket : (withFs.drop 12).length = packetSize p nCh x.data.numSamples := by
    rw [List.length_drop]
    omega
  have hcopyT := copyFromSlice_ok (ε := SerializeError) (show 8 ≤ output.length by omega)
    (show 0 + (i64ToLeBytes x.t).length = 8 by simp)
  have hcopyFs := copyFromSlice_ok (ε := SerializeError) (show 12 ≤ withT.length by omega)
    (show 8 + (f32ToLeBytes x.fs).length = 12 by simp)
  unfold asTopicData
  rw [uniformSizeOf_eq x.data.numSamples_lt h, ok_bind, ← hsize, if_neg (by omega),
    slice_ok (Nat.zero_le _) hlen, ok_bind, List.drop_zero, hcopyT, ok_bind, hcopyFs, ok_bind,
    splitAt_ok (show 12 ≤ withFs.length by omega), ok_bind]
  simp only [Packet.toBytes_eq x.data hpacket.ge, ok_bind, htake12,
    List.drop_of_length_le hpacket.le, List.append_nil]
  rfl

lemma asTopicData_full {x : Uniform p nCh max} (h : x.size ≤ maxMessageLen) {bytes : List UInt8}
    (hlen : bytes.length < x.size) : x.asTopicData bytes = .error (.err (.bufferFull x.size)) := by
  unfold asTopicData
  rw [uniformSizeOf_eq x.data.numSamples_lt h, ok_bind]
  exact if_pos hlen

lemma length_asTopicData {x : Uniform p nCh max} {bytes output buffer : List UInt8}
    (h : x.asTopicData bytes = .ok (output, buffer)) : buffer.length = bytes.length := by
  by_cases hmax : x.size ≤ maxMessageLen
  · by_cases hlen : x.size ≤ bytes.length
    · rw [asTopicData_eq hmax hlen] at h
      cases h
      rw [List.length_append, List.length_drop, length_encoding]
      omega
    · rw [asTopicData_full hmax (by omega)] at h
      cases h
  · rw [asTopicData_panic hmax] at h
    cases h

lemma uniformSizeOf_zero {ε : Type} : (uniformSizeOf p nCh 0 : Attempt ε ℕ) = .ok 12 := by
  have hmin : packetSize p nCh 0 = 0 := if_pos (.inl rfl)
  have h := uniformSizeOf_eq (ε := ε) (show 0 < 256 ^ p from Nat.pow_pos (by decide))
    (show 12 + packetSize p nCh 0 ≤ maxMessageLen by rw [hmin]; decide)
  rwa [hmin] at h

lemma fromTopicData_short {bytes : List UInt8} (h : bytes.length < 12) :
    fromTopicData p nCh max bytes = .error (.err (.deserialize "Buffer too small")) := by
  unfold fromTopicData
  rw [uniformSizeOf_zero, ok_bind, if_pos h]
  rfl

lemma fromTopicData_long {bytes : List UInt8} (h : 12 ≤ bytes.length) :
    fromTopicData p nCh max bytes =
      (Attempt.mapErr (fun err => ParseError.deserialize err.display)
        (Packet.fromBytes p nCh max (bytes.drop 12)) >>= fun data =>
        if (⟨i64FromLeBytes (bytes.take 8), f32FromLeBytes ((bytes.take 12).drop 8), data⟩ :
            Uniform p nCh max).verify then
          .ok ⟨i64FromLeBytes (bytes.take 8), f32FromLeBytes ((bytes.take 12).drop 8), data⟩
        else .error (.err .invalid)) := by
  unfold fromTopicData
  rw [uniformSizeOf_zero, ok_bind, if_neg (by omega), slice_ok (by omega) (by omega), ok_bind,
    slice_ok (by omega) h, ok_bind, sliceFrom_ok h, ok_bind]
  rfl

/-- The accepted messages and the values read from them. -/
lemma fromTopicData_eq_ok {bytes : List UInt8} {x : Uniform p nCh max} :
    fromTopicData p nCh max bytes = .ok x ↔
      12 ≤ bytes.length ∧ x.t = i64FromLeBytes (bytes.take 8) ∧
        x.fs = f32FromLeBytes ((bytes.take 12).drop 8) ∧
        Packet.fromBytes p nCh max (bytes.drop 12) = .ok x.data ∧ x.verify = true := by
  by_cases h : bytes.length < 12
  · rw [fromTopicData_short h]
    simp only [reduceCtorEq, false_iff]
    rintro ⟨hlen, -⟩
    omega
  rw [fromTopicData_long (by omega)]
  obtain ⟨t, fs, data⟩ := x
  cases Packet.fromBytes p nCh max (bytes.drop 12) with
  | error e =>
    cases e with
    | err e => simp [Attempt.mapErr]
    | panic => simp [Attempt.mapErr]
  | ok packet =>
    simp only [Attempt.mapErr, ok_bind]
    constructor
    · intro hx
      split at hx
      next hverify =>
        cases hx
        exact ⟨by omega, rfl, rfl, rfl, hverify⟩
      · cases hx
    · rintro ⟨-, rfl, rfl, hpacket, hverify⟩
      cases hpacket
      rw [if_pos hverify]

/-! ### Round trips -/

/-- A verified message comes back from its encoding iff its packet is canonical. -/
lemma fromTopicData_encoding {x : Uniform p nCh max} (hverify : x.verify = true) :
    fromTopicData p nCh max x.encoding = .ok x ↔ x.data.Canonical := by
  have hlen : 12 ≤ x.encoding.length := by
    rw [length_encoding]
    exact Nat.le_add_right _ _
  have ht : x.encoding.take 8 = i64ToLeBytes x.t := by
    rw [encoding, List.append_assoc, List.take_left' (length_i64ToLeBytes _)]
  have hfs : (x.encoding.take 12).drop 8 = f32ToLeBytes x.fs := by
    rw [encoding, List.take_left' (by simp), List.drop_left' (length_i64ToLeBytes _)]
  rw [fromTopicData_eq_ok, drop_encoding, Packet.fromBytes_encoding, ht, hfs,
    i64FromLeBytes_toLeBytes, f32FromLeBytes_toLeBytes]
  exact ⟨fun h => h.2.2.2.1, fun h => ⟨hlen, rfl, rfl, h, hverify⟩⟩

/-- An accepted message starts with the encoding of the value read from it. -/
lemma encoding_of_fromTopicData {bytes : List UInt8} {x : Uniform p nCh max}
    (h : fromTopicData p nCh max bytes = .ok x) :
    x.size ≤ bytes.length ∧ x.encoding = bytes.take x.size := by
  obtain ⟨hlen, ht, hfs, hpacket, -⟩ := fromTopicData_eq_ok.mp h
  obtain ⟨hsize, hle, hdata⟩ := Packet.fromBytes_eq_ok.mp hpacket
  have hn : x.data.numSamples = lengthField p (bytes.drop 12) := congrArg Packet.numSamples hdata
  rw [List.length_drop] at hsize
  have hsize' : x.size ≤ bytes.length := by
    rw [size, hn]
    omega
  have hpacketBytes : x.data.encoding =
      (bytes.drop 12).take (packetSize p nCh x.data.numSamples) := by
    rw [hn, hdata]
    exact Packet.encoding_ofBytes hle (by rw [List.length_drop]; exact hsize)
  have hheader : bytes.take 8 ++ (bytes.take 12).drop 8 = bytes.take 12 := by
    have h8 : (bytes.take 12).take 8 = bytes.take 8 := by rw [List.take_take]; rfl
    rw [← h8, List.take_append_drop]
  refine ⟨hsize', ?_⟩
  rw [encoding, ht, hfs, i64ToLeBytes_fromLeBytes (by rw [List.length_take]; omega),
    f32ToLeBytes_fromLeBytes (by rw [List.length_drop, List.length_take]; omega), hheader,
    hpacketBytes, size, List.take_add]

/-- **Round trips of the sample messages.** A verified message that fits comes back from its topic data
iff its packet is canonical. The topic data of an accepted message is the start of that message; only
when the value needs more than `MAX_MESSAGE_LEN` bytes does `as_topic_data` panic. -/
theorem topicData_roundTrip (p nCh max : ℕ) :
    (∀ (x : Uniform p nCh max) (buffer : List UInt8), x.verify = true → x.size ≤ maxMessageLen →
      x.size ≤ buffer.length → ∃ output written, x.asTopicData buffer = .ok (output, written) ∧
        (fromTopicData p nCh max output = .ok x ↔ x.data.Canonical)) ∧
    (∀ (bytes : List UInt8) (x : Uniform p nCh max), fromTopicData p nCh max bytes = .ok x →
      x.size ≤ bytes.length ∧
      (∀ buffer : List UInt8, x.size ≤ maxMessageLen → x.size ≤ buffer.length →
        ∃ written, x.asTopicData buffer = .ok (bytes.take x.size, written)) ∧
      (¬ x.size ≤ maxMessageLen → ∀ buffer, x.asTopicData buffer = .error .panic) ∧
      ∀ bytes', fromTopicData p nCh max bytes' = .ok x →
        bytes'.take x.size = bytes.take x.size) := by
  constructor
  · intro x buffer hverify hsize hbuffer
    exact ⟨_, _, asTopicData_eq hsize hbuffer, fromTopicData_encoding hverify⟩
  · intro bytes x h
    obtain ⟨hle, hencoding⟩ := encoding_of_fromTopicData h
    refine ⟨hle, fun buffer hsize hbuffer => ?_, fun hsize => asTopicData_panic hsize,
      fun bytes' h' => ?_⟩
    · exact ⟨_, hencoding ▸ asTopicData_eq hsize hbuffer⟩
    · rw [← hencoding, ← (encoding_of_fromTopicData h').2]

/-- A message of one second at 1 kHz, with one sample of value `500` -/
def oneSample : Uniform 1 1 1 := ⟨1000000, 0x447A0000, Packet.oneSample 1 (by decide)⟩

theorem topicData_roundTrip_oneSample :
    (oneSample.verify = true ∧ oneSample.size ≤ maxMessageLen ∧
      ∃ output written, oneSample.asTopicData (List.replicate 16 0) = .ok (output, written) ∧
        (fromTopicData 1 1 1 output = .ok oneSample ↔ oneSample.data.Canonical)) ∧
    fromTopicData 1 1 1 (oneSample.encoding ++ [9]) = .ok oneSample ∧
      ∃ written, oneSample.asTopicData (List.replicate 16 0) =
        .ok ((oneSample.encoding ++ [9]).take oneSample.size, written) := by
  have haccept : fromTopicData 1 1 1 (oneSample.encoding ++ [9]) = .ok oneSample :=
    fromTopicData_eq_ok.mpr ⟨by decide, by decide, by decide,
      Packet.fromBytes_eq_ok.mpr ⟨by decide, by decide, by decide +kernel⟩, by decide⟩
  refine ⟨⟨by decide, by decide, ?_⟩, haccept, ?_⟩
  · exact (topicData_roundTrip 1 1 1).1 oneSample _ (by decide) (by decide) (by decide)
  · exact ((topicData_roundTrip 1 1 1).2 _ _ haccept).2.1 _ (by decide) (by decide)

/-- `from_uniform` of no samples: the exponent is `EXPONENT_MIN`. -/
def noSamples : Uniform 2 1 1 :=
  ⟨1000000, 0x447A0000, ⟨0, fun _ => ⟨-113, fun _ => 0⟩, by decide, Nat.zero_le 1⟩⟩

/-- More samples than a message holds -/
def tooLong : Uniform 2 1 745 :=
  ⟨1000000, 0x447A0000, ⟨745, fun _ => Q15Channel.empty, by decide, le_rfl⟩⟩

/-- The exponent of a channel without samples is lost; and a value can be read that
`as_topic_data` does not write. -/
theorem topicData_roundTrip_fails :
    (noSamples.verify = true ∧ noSamples.size ≤ maxMessageLen ∧
      ∃ output written, noSamples.asTopicData (List.replicate 16 0) = .ok (output, written) ∧
        fromTopicData 2 1 1 output ≠ .ok noSamples) ∧
    ∃ bytes, fromTopicData 2 1 745 bytes = .ok tooLong ∧
      ∀ buffer, tooLong.asTopicData buffer = .error .panic := by
  refine ⟨⟨by decide, by decide, _, _, asTopicData_eq (by decide) (by decide), ?_⟩,
    tooLong.encoding, ?_, asTopicData_panic (by decide)⟩
  · decide +kernel
  · refine (fromTopicData_encoding (by decide)).mpr ⟨fun h => ?_, fun _ _ _ => rfl⟩
    exact absurd h (by decide)

end Uniform

end SensorLink.Samples
