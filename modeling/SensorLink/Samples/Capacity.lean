import Mathlib.Order.Bounds.Basic
import SensorLink.Samples.Uniform

/-!
# How many samples a buffer holds

`max_num_input_samples` inverts the size of a message by two divisions. It knows nothing of the limits that
the size function itself asserts, so that it is exact up to `MAX_MESSAGE_LEN` bytes only.
-/

namespace SensorLink.Samples.Uniform

open SensorLink.Lib

variable {p nCh max n b : ℕ}

/-- `max_num_input_samples`; `Q15_OVERHEAD_PER_PACKET` is `p`. -/
def maxNumInputSamples (p nCh bufferSize : ℕ) : ℕ :=
  let requiredOverhead := uniformHeaderOverhead + p
  if bufferSize < requiredOverhead ∨ nCh = 0 then 0
  else
    let availableBytes := bufferSize - requiredOverhead
    let requiredPerChannel := overheadPerChannel + bytesPerSample
    if availableBytes < nCh * requiredPerChannel then 0
    else
      let availableBytesPerChannel := availableBytes / nCh
      (availableBytesPerChannel - overheadPerChannel) / bytesPerSample

/-- `serialized_size` -/
def serializedSize {ε : Type} (x : Uniform p nCh max) : Attempt ε ℕ :=
  uniformSizeOf p nCh x.data.numSamples

/-- A message with `n` samples occupies at most `b` bytes. -/
def Occupies (p nCh n b : ℕ) : Prop :=
  ∃ max, ∃ x : Uniform p nCh max, x.data.numSamples = n ∧
    ∃ size ≤ b, (x.serializedSize : Attempt SerializeError ℕ) = .ok size

/-! ### The layout -/

lemma packetSize_pos (hch : 0 < nCh) (hn : 0 < n) : packetSize p nCh n = p + nCh * channelSize n :=
  if_neg (by omega)

/-- **The capacity is the inverse of the size.** -/
lemma le_maxNumInputSamples_iff (hch : 0 < nCh) (hn : 0 < n) :
    n ≤ maxNumInputSamples p nCh b ↔ uniformHeaderOverhead + packetSize p nCh n ≤ b := by
  have hthree : nCh * 3 ≤ nCh * channelSize n := by
    apply Nat.mul_le_mul_left
    unfold channelSize
    omega
  have hper : overheadPerChannel + bytesPerSample = 3 := rfl
  rw [packetSize_pos hch hn]
  unfold maxNumInputSamples
  dsimp only
  rw [hper]
  by_cases hsmall : b < uniformHeaderOverhead + p ∨ nCh = 0
  · rw [if_pos hsmall]
    omega
  rw [if_neg hsmall]
  by_cases hone : b - (uniformHeaderOverhead + p) < nCh * 3
  · rw [if_pos hone]
    omega
  rw [if_neg hone]
  -- there is room for a sample on each channel
  have hroom : 3 ≤ (b - (uniformHeaderOverhead + p)) / nCh := by
    rw [Nat.le_div_iff_mul_le hch, Nat.mul_comm]
    omega
  have hchannel : channelSize n ≤ (b - (uniformHeaderOverhead + p)) / nCh ↔
      nCh * channelSize n ≤ b - (uniformHeaderOverhead + p) := by
    rw [Nat.le_div_iff_mul_le hch, Nat.mul_comm]
  have hsamples : n ≤ ((b - (uniformHeaderOverhead + p)) / nCh - overheadPerChannel) / bytesPerSample ↔
      channelSize n ≤ (b - (uniformHeaderOverhead + p)) / nCh := by
    unfold overheadPerChannel bytesPerSample channelSize
    omega
  rw [hsamples, hchannel]
  omega

lemma isGreatest_maxNumInputSamples (hch : 0 < nCh) (b : ℕ) :
    IsGreatest {n | n = 0 ∨ uniformHeaderOverhead + packetSize p nCh n ≤ b}
      (maxNumInputSamples p nCh b) := by
  constructor
  · rcases Nat.eq_zero_or_pos (maxNumInputSamples p nCh b) with hzero | hpos
    · exact .inl hzero
    · exact .inr ((le_maxNumInputSamples_iff hch hpos).mp le_rfl)
  · rintro n (rfl | hn)
    · exact Nat.zero_le _
    · rcases Nat.eq_zero_or_pos n with rfl | hpos
      · exact Nat.zero_le _
      · exact (le_maxNumInputSamples_iff hch hpos).mpr hn

/-! ### The messages -/

lemma serializedSize_eq {ε : Type} {x : Uniform p nCh max} (h : x.size ≤ maxMessageLen) :
    (x.serializedSize : Attempt ε ℕ) = .ok x.size :=
  uniformSizeOf_eq x.data.numSamples_lt h

lemma serializedSize_panic {ε : Type} {x : Uniform p nCh max} (h : ¬ x.size ≤ maxMessageLen) :
    (x.serializedSize : Attempt ε ℕ) = .error .panic :=
  uniformSizeOf_panic x.data.numSamples_lt h

/-- A message with a number of samples, all of them empty -/
def blank (hp : n < 256 ^ p) : Uniform p nCh n := ⟨0, 0, ⟨n, fun _ => Q15Channel.empty, hp, le_rfl⟩⟩

/-- The messages are those that the length field counts and that are not longer than a message may be. -/
lemma occupies_iff : Occupies p nCh n b ↔
    n < 256 ^ p ∧ uniformHeaderOverhead + packetSize p nCh n ≤ min b maxMessageLen := by
  rw [le_min_iff]
  constructor
  · rintro ⟨max, x, rfl, size, hle, hsize⟩
    by_cases hmax : x.size ≤ maxMessageLen
    · rw [serializedSize_eq hmax] at hsize
      cases hsize
      exact ⟨x.data.numSamples_lt, hle, hmax⟩
    · rw [serializedSize_panic hmax] at hsize
      cases hsize
  · rintro ⟨hp, hb, hmax⟩
    exact ⟨n, blank hp, rfl, _, hb, serializedSize_eq hmax⟩

/-- Two bytes for the length are enough for every message with a channel. -/
lemma numSamples_lt_of_size (hch : 0 < nCh)
    (h : uniformHeaderOverhead + packetSize 2 nCh n ≤ maxMessageLen) : n < 256 ^ 2 := by
  rcases Nat.eq_zero_or_pos n with rfl | hn
  · exact Nat.pow_pos (by decide)
  · rw [packetSize_pos hch hn] at h
    have hle : channelSize n ≤ nCh * channelSize n := Nat.le_mul_of_pos_left _ hch
    simp only [channelSize, uniformHeaderOverhead, maxMessageLen] at h hle
    omega

/-- **The capacity of a buffer** is that of the part of it that a message may fill. -/
lemma isGreatest_occupies (hch : 0 < nCh) (b : ℕ) :
    IsGreatest {n | n = 0 ∨ Occupies 2 nCh n b} (maxNumInputSamples 2 nCh (min b maxMessageLen)) := by
  have hset : {n | n = 0 ∨ Occupies 2 nCh n b} =
      {n | n = 0 ∨ uniformHeaderOverhead + packetSize 2 nCh n ≤ min b maxMessageLen} := by
    ext n
    simp only [Set.mem_ofPred_eq, occupies_iff]
    constructor
    · rintro (hzero | ⟨-, hsize⟩)
      · exact .inl hzero
      · exact .inr hsize
    · rintro (hzero | hsize)
      · exact .inl hzero
      · exact .inr ⟨numSamples_lt_of_size hch (hsize.trans (min_le_right _ _)), hsize⟩
  rw [hset]
  exact isGreatest_maxNumInputSamples hch _

end SensorLink.Samples.Uniform
