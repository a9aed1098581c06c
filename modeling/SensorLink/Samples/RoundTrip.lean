import Mathlib.Data.Fin.VecNotation
import SensorLink.Samples.Format

/-!
# Round trips of a packet

The wire format itself loses only what `num_samples` does not count: `fromBytes` gives a packet back
from its encoding iff the packet is canonical, and every accepted slice starts with the encoding of the
packet read from it. But the slice that `to_bytes` returns is the encoding without its length field,
so that the samples never come back from it.
-/

namespace SensorLink.Samples.Packet

open SensorLink.Lib

variable {p nCh max : ℕ}

/-- The packet has no samples, and its channels are `Q15Channel::EMPTY`. -/
def Empty (x : Packet p nCh max) : Prop := x.numSamples = 0 ∧ ∀ c, x.ch c = Q15Channel.empty

instance (x : Packet p nCh max) : Decidable x.Empty := by unfold Empty; infer_instance

/-- Nothing is stored beyond what `num_samples` counts on the channels of the packet. -/
structure Canonical (x : Packet p nCh max) : Prop where
  empty : x.numSamples = 0 ∨ nCh = 0 → x.Empty
  blank : ∀ c, (x.ch c).Blank x.numSamples

/-! ### The wire format -/

lemma lengthField_leBytes {n : ℕ} (hn : n < 256 ^ p) (rest : List UInt8) :
    lengthField p (leBytes p n ++ rest) = n := by
  rw [lengthField, if_pos (by simp), List.take_left' (length_leBytes _ _), ofLeBytes_leBytes,
    Nat.mod_eq_of_lt hn]

lemma lengthField_nil : lengthField p [] = 0 := by
  unfold lengthField
  split <;> simp [ofLeBytes]

@[simp]
lemma numSamples_ofBytes {bytes : List UInt8} (h : lengthField p bytes ≤ max) :
    (ofBytes p nCh max bytes h).numSamples = lengthField p bytes := rfl

lemma fromBytes_ok {bytes : List UInt8} (h : lengthField p bytes ≤ max)
    (hlen : packetSize p nCh (lengthField p bytes) ≤ bytes.length) :
    fromBytes p nCh max bytes = .ok (ofBytes p nCh max bytes h) := by
  rw [fromBytes_eq, dif_neg (by omega), if_neg (by omega)]

/-- The accepted slices and the packets read from them. -/
lemma fromBytes_eq_ok {bytes : List UInt8} {x : Packet p nCh max} :
    fromBytes p nCh max bytes = .ok x ↔
      packetSize p nCh (lengthField p bytes) ≤ bytes.length ∧
        ∃ h : lengthField p bytes ≤ max, x = ofBytes p nCh max bytes h := by
  rw [fromBytes_eq]
  by_cases hmax : max < lengthField p bytes
  · simp only [dif_pos hmax, reduceCtorEq, false_iff]
    rintro ⟨-, h, -⟩
    omega
  rw [dif_neg hmax]
  by_cases hlen : bytes.length < packetSize p nCh (lengthField p bytes)
  · simp only [if_pos hlen, reduceCtorEq, false_iff]
    rintro ⟨h, -⟩
    omega
  · rw [if_neg hlen, Except.ok.injEq, eq_comm]
    constructor
    · intro h
      exact ⟨by omega, by omega, h⟩
    · rintro ⟨_, _, h⟩
      exact h

lemma fromBytes_nil (x : Packet p nCh max) : fromBytes p nCh max [] = .ok x ↔ x.Empty := by
  have hn : lengthField p [] = 0 := lengthField_nil
  have hok : fromBytes p nCh max [] = .ok (ofBytes p nCh max [] (by omega)) :=
    fromBytes_ok (by omega) (by rw [packetSize, if_pos (.inl hn)]; exact Nat.zero_le _)
  rw [hok, Except.ok.injEq]
  constructor
  · rintro rfl
    exact ⟨hn, fun c => by simp [ofBytes, hn]⟩
  · rintro ⟨hx, hch⟩
    obtain ⟨n, ch, hlt, hle⟩ := x
    simp only at hx hch
    subst hx
    simp only [ofBytes, hn, if_true, mk.injEq, true_and]
    funext c
    exact (hch c).symm

lemma channel_ofBytes_encoding {x : Packet p nCh max} (hzero : ¬ (x.numSamples = 0 ∨ nCh = 0))
    (c : Fin nCh) (h : lengthField p x.encoding ≤ max) :
    (ofBytes p nCh max x.encoding h).ch c =
      channelOf max x.numSamples (channelBytes x.numSamples (x.ch c)) := by
  have hencoding : x.encoding = leBytes p x.numSamples ++ x.data := if_neg hzero
  have hfield : lengthField p x.encoding = x.numSamples := by
    rw [hencoding, lengthField_leBytes x.numSamples_lt]
  have hblock := take_drop_flatMap_range
    (fun j _ => length_channelBytes x.numSamples (x.channel j)) c.isLt []
  rw [List.append_nil] at hblock
  have hdrop : x.encoding.drop p = x.data := by
    rw [hencoding, List.drop_left' (length_leBytes _ _)]
  simp only [ofBytes, hfield, if_neg (not_or.mp hzero).1, hdrop]
  rw [data, hblock, channel, dif_pos c.isLt]

/-- **The wire format loses nothing of a canonical packet**, and something of any other. -/
theorem fromBytes_encoding (x : Packet p nCh max) :
    fromBytes p nCh max x.encoding = .ok x ↔ x.Canonical := by
  by_cases hzero : x.numSamples = 0 ∨ nCh = 0
  · have hencoding : x.encoding = [] := if_pos hzero
    rw [hencoding, fromBytes_nil]
    refine ⟨fun h => ⟨fun _ => h, fun c i _ => ?_⟩, fun h => h.empty hzero⟩
    rw [h.2 c]
    rfl
  have hfield : lengthField p x.encoding = x.numSamples := by
    rw [encoding, if_neg hzero, lengthField_leBytes x.numSamples_lt]
  have hle : lengthField p x.encoding ≤ max := hfield.trans_le x.numSamples_le
  have hok : fromBytes p nCh max x.encoding = .ok (ofBytes p nCh max x.encoding hle) :=
    fromBytes_ok hle (by rw [hfield, length_encoding])
  rw [hok, Except.ok.injEq]
  constructor
  · intro h
    refine ⟨fun hz => absurd hz hzero, fun c => ?_⟩
    have hch : x.ch c = (ofBytes p nCh max x.encoding hle).ch c := by rw [h]
    rw [hch, channel_ofBytes_encoding hzero]
    exact blank_channelOf _
  · intro h
    have hch : (ofBytes p nCh max x.encoding hle).ch = x.ch := by
      funext c
      rw [channel_ofBytes_encoding hzero, channelOf_channelBytes (h.blank c)]
    obtain ⟨n, ch, hlt, hle'⟩ := x
    exact (mk.injEq ..).mpr ⟨hfield, hch⟩

/-- **An accepted slice starts with the encoding of the packet read from it.** -/
theorem encoding_ofBytes {bytes : List UInt8} (h : lengthField p bytes ≤ max)
    (hlen : packetSize p nCh (lengthField p bytes) ≤ bytes.length) :
    (ofBytes p nCh max bytes h).encoding =
      bytes.take (packetSize p nCh (lengthField p bytes)) := by
  by_cases hzero : lengthField p bytes = 0 ∨ nCh = 0
  · rw [encoding, numSamples_ofBytes, if_pos hzero, packetSize, if_pos hzero, List.take_zero]
  have hsize : packetSize p nCh (lengthField p bytes) =
      p + nCh * channelSize (lengthField p bytes) := if_neg hzero
  rw [hsize] at hlen ⊢
  have hfield : leBytes p (lengthField p bytes) = bytes.take p := by
    rw [lengthField, if_pos (by omega)]
    exact leBytes_ofLeBytes (by rw [List.length_take]; omega)
  have hdrop : nCh * channelSize (lengthField p bytes) ≤ (bytes.drop p).length := by
    rw [List.length_drop]
    omega
  have hblock : ∀ c ∈ List.range nCh, channelBytes (lengthField p bytes)
      ((ofBytes p nCh max bytes h).channel c) =
      ((bytes.drop p).drop (c * channelSize (lengthField p bytes))).take
        (channelSize (lengthField p bytes)) := by
    intro c hc
    have hc' := List.mem_range.mp hc
    have hmul : (c + 1) * channelSize (lengthField p bytes) ≤
        nCh * channelSize (lengthField p bytes) := Nat.mul_le_mul_right _ hc'
    rw [Nat.succ_mul] at hmul
    rw [channel, dif_pos hc']
    simp only [ofBytes, if_neg (not_or.mp hzero).1]
    apply channelBytes_channelOf h
    rw [List.length_take, List.length_drop]
    omega
  rw [encoding, numSamples_ofBytes, if_neg hzero, hfield, data, numSamples_ofBytes,
    List.flatMap_congr hblock, flatMap_range_take_drop nCh hdrop, List.take_add]

/-! ### `to_bytes` and `from_bytes` -/

/-- `from_bytes` gives the packet back from the slice that `to_bytes` returns. -/
def RoundTrips (x : Packet p nCh max) (buffer : List UInt8) : Prop :=
  ∃ output written, x.toBytes buffer = .ok (output, written) ∧ fromBytes p nCh max output = .ok x

lemma roundTrips_eq {x : Packet p nCh max} {buffer : List UInt8}
    (h : packetSize p nCh x.numSamples ≤ buffer.length) :
    x.RoundTrips buffer ↔ fromBytes p nCh max (x.encoding.drop p) = .ok x := by
  unfold RoundTrips
  rw [toBytes_eq x h]
  constructor
  · rintro ⟨output, written, heq, hfrom⟩
    cases heq
    exact hfrom
  · intro hfrom
    exact ⟨_, _, rfl, hfrom⟩

/-- Without the length field, the slice is too short for the samples it should hold. -/
lemma fromBytes_drop_encoding (hp : 0 < p) (x : Packet p nCh max) :
    fromBytes p nCh max (x.encoding.drop p) = .ok x ↔ x.Empty := by
  by_cases hzero : x.numSamples = 0 ∨ nCh = 0
  · have hencoding : x.encoding = [] := if_pos hzero
    rw [hencoding, List.drop_nil, fromBytes_nil]
  have hsize : packetSize p nCh x.numSamples = p + nCh * channelSize x.numSamples := if_neg hzero
  constructor
  · intro h
    obtain ⟨hlen, hle, hx⟩ := fromBytes_eq_ok.mp h
    have hn : x.numSamples = lengthField p (x.encoding.drop p) := congrArg numSamples hx
    rw [← hn, List.length_drop, length_encoding] at hlen
    omega
  · intro h
    exact absurd (.inl h.1) hzero

/-- **The slice that `to_bytes` returns gives the packet back iff the packet is empty**, in both
formats. -/
theorem roundTrips_iff_empty (nCh max : ℕ) :
    (∀ (x : Q15 nCh max) (buffer : List UInt8), packetSize 1 nCh x.numSamples ≤ buffer.length →
      (x.RoundTrips buffer ↔ x.Empty)) ∧
    (∀ (x : Q15XL nCh max) (buffer : List UInt8), packetSize 2 nCh x.numSamples ≤ buffer.length →
      (x.RoundTrips buffer ↔ x.Empty)) := by
  constructor
  · intro x buffer h
    rw [roundTrips_eq h, fromBytes_drop_encoding Nat.one_pos]
  · intro x buffer h
    rw [roundTrips_eq h, fromBytes_drop_encoding Nat.two_pos]

/-- Two samples on each of two channels, with room for a third one -/
def twoChannels (p : ℕ) (hp : 2 < 256 ^ p) : Packet p 2 3 :=
  ⟨2, ![⟨3, ![500, -7, 0]⟩, ⟨-1, ![1, -32767, 0]⟩], hp, by decide⟩

theorem roundTrips_twoChannels :
    (packetSize 1 2 2 ≤ 16 ∧
      ((twoChannels 1 (by decide)).RoundTrips (List.replicate 16 0) ↔
        (twoChannels 1 (by decide)).Empty)) ∧
    (packetSize 2 2 2 ≤ 16 ∧
      ((twoChannels 2 (by decide)).RoundTrips (List.replicate 16 0) ↔
        (twoChannels 2 (by decide)).Empty)) :=
  ⟨⟨by decide, (roundTrips_iff_empty 2 3).1 _ _ (by decide)⟩,
    ⟨by decide, (roundTrips_iff_empty 2 3).2 _ _ (by decide)⟩⟩

/-- One sample on one channel -/
def oneSample (p : ℕ) (hp : 1 < 256 ^ p) : Packet p 1 1 := ⟨1, fun _ => ⟨3, fun _ => 500⟩, hp, le_rfl⟩

/-- The returned slice is `[3, 244, 1]`: the exponent is read as the number of samples. -/
theorem roundTrips_oneSample_fails :
    (oneSample 1 (by decide)).toBytes (List.replicate 16 0) =
        .ok ([3, 244, 1], [1, 3, 244, 1] ++ List.replicate 12 0) ∧
      ¬ (oneSample 1 (by decide)).RoundTrips (List.replicate 16 0) ∧
      ¬ (oneSample 2 (by decide)).RoundTrips (List.replicate 16 0) := by
  refine ⟨by decide +kernel, ?_, ?_⟩
  · rw [roundTrips_eq (by decide)]
    decide +kernel
  · rw [roundTrips_eq (by decide)]
    decide +kernel

end SensorLink.Samples.Packet
