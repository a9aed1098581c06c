import SensorLink.Dispatch.Retry

/-!
# Which data may share a packet

A push compares the first timestamp of the data with `last_timestamp + t_delta_us`, in one direction
only. Data that starts later is refused; data that starts long before the samples in the buffer is
appended to them.
-/

namespace SensorLink.Dispatch

open SensorLink.Lib SensorLink.Samples

namespace SerializingBuffer

variable {α : Type} {nAxes max : ℕ}
variable {b : SerializingBuffer α nAxes max} {data : SampleData α nAxes max}

/-- The timestamp at which the next data is expected, if data up to `slack` later is accepted. This is the
last timestamp of the buffer for a slack of `tDeltaUs`, and the one of the next sample for half of it. -/
def expectedNext (b : SerializingBuffer α nAxes max) (slack : ℤ) : ℤ :=
  b.lastTimestamp.toInt + b.tDeltaUs.toInt - slack

/-- The data starts within the slack of the expected timestamp, on either side. -/
def Contiguous (b : SerializingBuffer α nAxes max) (slack : ℤ) (data : SampleData α nAxes max) : Prop :=
  |data.t.toInt - b.expectedNext slack| ≤ slack

/-- The push leaves the data in the buffer. -/
def Appends (b : SerializingBuffer α nAxes max) (data : SampleData α nAxes max) : Prop :=
  ∃ status b', b.push data = some (status, b') ∧
    (status = .ok ∨ status = .notEnoughSpaceForNext ∨ status = .timeout)

/-- Data is appended only if it is contiguous. Other data is reported, and the buffer stays as it is. -/
def KeepsContiguous (b : SerializingBuffer α nAxes max) (slack : ℤ) (data : SampleData α nAxes max) :
    Prop :=
  (b.Appends data → b.Contiguous slack data) ∧
    (¬ b.Contiguous slack data → b.push data = some (.notContiguous, b))

/-- The data starts more than `tDeltaUs` after the last timestamp. -/
def JumpsAhead (b : SerializingBuffer α nAxes max) (data : SampleData α nAxes max) : Prop :=
  InRange (b.lastTimestamp.toInt + b.tDeltaUs.toInt) ∧
    b.lastTimestamp.toInt + b.tDeltaUs.toInt < data.t.toInt

lemma push_of_no_room (h : max < b.len + data.len) : b.push data = some (.notEnoughSpace, b) := if_pos h

/-- `NotContiguous` is the answer to a jump ahead, and to nothing else. -/
lemma push_eq_notContiguous_iff (hne : b.isEmpty = false) :
    b.push data = some (.notContiguous, b) ↔ b.len + data.len ≤ max ∧ b.JumpsAhead data := by
  have hstamp : b.stamp data = b := by
    unfold stamp
    rw [hne]
    rfl
  by_cases hfull : max < b.len + data.len
  · rw [push_of_no_room hfull]
    constructor
    · intro h
      cases h
    · rintro ⟨hroom, -⟩
      omega
  · have hroom : b.len + data.len ≤ max := Nat.le_of_not_lt hfull
    rw [and_iff_right hroom]
    unfold push JumpsAhead
    rw [if_neg hfull]
    by_cases hrange : InRange (b.lastTimestamp.toInt + b.tDeltaUs.toInt)
    · obtain ⟨limit, hlimit, hvalue⟩ := checkedI64_of_inRange hrange
      simp only [hstamp, hlimit, Option.bind_eq_bind, Option.bind_some]
      by_cases hahead : limit.toInt < data.t.toInt
      · rw [if_pos hahead]
        exact iff_of_true rfl ⟨hrange, by omega⟩
      · rw [if_neg hahead]
        apply iff_of_false
        · -- behind the comparison no branch answers `NotContiguous`
          intro h
          split at h
          · cases h
          · cases hdt : checkedI64 (data.tLast.toInt - b.sampleBuffer.t.toInt) with
            | none => simp [hdt] at h
            | some dtUs =>
              simp only [hdt, Option.bind_some] at h
              split_ifs at h <;> simp at h
        · rintro ⟨-, hjump⟩
          omega
    · simp only [hstamp, checkedI64_eq_none hrange, Option.bind_eq_bind, Option.bind_none]
      apply iff_of_false
      · intro h
        cases h
      · rintro ⟨hinside, -⟩
        exact hrange hinside

/-- **When a packet keeps to contiguous data**, for every buffer that is not empty, all data and every
slack. It does if and only if the data is contiguous or jumps ahead (and has room: data without room is
refused before its timestamps are looked at). -/
theorem keepsContiguous_iff (b : SerializingBuffer α nAxes max) (data : SampleData α nAxes max) (slack : ℤ)
    (hne : b.isEmpty = false) :
    (b.KeepsContiguous slack data ↔
        b.Contiguous slack data ∨ b.len + data.len ≤ max ∧ b.JumpsAhead data) ∧
      (max < b.len + data.len → b.push data = some (.notEnoughSpace, b)) := by
  refine ⟨?_, push_of_no_room⟩
  rw [← push_eq_notContiguous_iff hne]
  unfold KeepsContiguous
  constructor
  · rintro ⟨-, hother⟩
    exact or_iff_not_imp_left.mpr hother
  · rintro (hcontiguous | hpush)
    · exact ⟨fun _ => hcontiguous, fun hnot => absurd hcontiguous hnot⟩
    · refine ⟨?_, fun _ => hpush⟩
      rintro ⟨status, b', happend, hstatus⟩
      rw [hpush] at happend
      cases happend
      simp at hstatus

/-! ### A clock that is set back -/

/-- One sample, taken at 1000 Hz, in a container for two -/
def sampleAt (t : Int64) : SampleData ℕ 1 4 where
  capacity := 2
  capacity_le := Nat.le_of_ble_eq_true rfl
  t := t
  len := 1
  len_le := Nat.le_of_ble_eq_true rfl
  samples _ _ := 7
  tLast := t
  fs := 0x447A0000

/-- A buffer for 1000 Hz with a sample at 9 s. -/
def bufferAt9s : SerializingBuffer ℕ 1 4 where
  sampleBuffer := ⟨9000000, 0x447A0000, fun _ => ⟨[7], by decide⟩⟩
  lastTimestamp := 9000000
  tDeltaUs := 2000
  timeoutUs := 60000000

/-- A sample one interval later is contiguous. -/
theorem keepsContiguous_next : bufferAt9s.isEmpty = false ∧
    bufferAt9s.KeepsContiguous 2000 (sampleAt 9001000) := by
  have hne : bufferAt9s.isEmpty = false := by decide
  refine ⟨hne, (keepsContiguous_iff bufferAt9s (sampleAt 9001000) 2000 hne).1.mpr (.inl ?_)⟩
  unfold Contiguous expectedNext
  decide

/-- A sample of 8 s before is appended behind the sample at 9 s, whether the slack is two sample intervals
or one. -/
theorem push_appends_earlier : ∃ b : SerializingBuffer ℕ 1 4,
    (empty (fun _ => 1000) 0x447A0000 60000000).bind (fun b => b.push (sampleAt 9000000)) =
        some (.ok, b) ∧
      b.isEmpty = false ∧ b.Appends (sampleAt 1000000) ∧
      ¬ b.KeepsContiguous 2000 (sampleAt 1000000) ∧ ¬ b.KeepsContiguous 1000 (sampleAt 1000000) := by
  refine ⟨_, rfl, by decide, ⟨.ok, _, rfl, .inl rfl⟩, ?_, ?_⟩
  · rintro ⟨honly, -⟩
    have hcontiguous := honly ⟨.ok, _, rfl, .inl rfl⟩
    unfold Contiguous expectedNext at hcontiguous
    revert hcontiguous
    decide
  · rintro ⟨honly, -⟩
    have hcontiguous := honly ⟨.ok, _, rfl, .inl rfl⟩
    unfold Contiguous expectedNext at hcontiguous
    revert hcontiguous
    decide

end SerializingBuffer

end SensorLink.Dispatch
