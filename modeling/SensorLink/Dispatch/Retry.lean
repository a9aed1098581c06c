import SensorLink.Dispatch.Buffering
import SensorLink.Lib.Loop

/-!
# The retry loop of `push_data`

A turn pushes the data, and serializes the buffer when the data was refused, to clear it. A cleared
buffer takes its timestamps from the data, so that it accepts the data unless this starts more than
`tDeltaUs` behind its own end. Then it is refused in every turn, and the loop is left only when the
serializer fails for the second time.
-/

namespace SensorLink.Dispatch

open SensorLink.Lib SensorLink.Samples

variable {α P : Type} {nAxes max : ℕ}

/-- The variables of the loop, with the number of turns so far -/
structure Retry (α P : Type) (nAxes max : ℕ) where
  turns : ℕ
  serializedPacket : Option P
  numTries : ℕ
  buffer : SerializingBuffer α nAxes max

/-- What `push_data` comes to: a result and the buffer, or a panic -/
abbrev PushEnd (α P : Type) (nAxes max : ℕ) :=
  Option (BufferResult P × SerializingBuffer α nAxes max)

/-- One turn of the loop, in which the serializer answers `serialized` if it is called -/
def pushDataTurn (data : SampleData α nAxes max) (serialized : UniformSamples α nAxes max → Option P)
    (s : Retry α P nAxes max) : Turn (PushEnd α P nAxes max) (Retry α P nAxes max) :=
  match s.buffer.push data with
  | none => .stop none
  | some (status, buffer) =>
    let (dataInserted, shouldSerialize) := match status with
      | .ok => (true, buffer.isFull)
      | .notContiguous | .notEnoughSpace => (false, true)
      | .notEnoughSpaceForNext | .timeout => (true, s.serializedPacket.isNone)
    if shouldSerialize then
      match serialized buffer.sampleBuffer with
      | some packet =>
        if dataInserted then .stop (some (.serialized packet, buffer.clear))
        else .again ⟨s.turns + 1, some packet, s.numTries, buffer.clear⟩
      | none =>
        if 1 ≤ s.numTries then .stop (some (.serializationFailed, buffer.clear))
        else if dataInserted then .stop (some (.ofPacket s.serializedPacket, buffer.clear))
        else .again ⟨s.turns + 1, s.serializedPacket, s.numTries + 1, buffer.clear⟩
    else .stop (some (.ofPacket s.serializedPacket, buffer))

/-- The loop of `push_data` is its turns, until the fuel is used up. -/
lemma pushDataLoop_succ (serialize : UniformSamples α nAxes max → Option P)
    (data : SampleData α nAxes max) (fuel : ℕ) (s : Retry α P nAxes max) :
    pushDataLoop serialize data (fuel + 1) s.serializedPacket s.numTries s.buffer =
      match pushDataTurn data serialize s with
      | .stop r => r
      | .again s' => pushDataLoop serialize data fuel s'.serializedPacket s'.numTries s'.buffer := by
  unfold pushDataTurn
  rw [pushDataLoop]
  cases s.buffer.push data with
  | none => rfl
  | some pushed =>
    obtain ⟨status, buffer⟩ := pushed
    simp only [Option.bind_eq_bind, Option.bind_some]
    cases status with
    | ok => cases buffer.isFull <;> cases serialize buffer.sampleBuffer <;> split_ifs <;> rfl
    | notContiguous => cases serialize buffer.sampleBuffer <;> split_ifs <;> rfl
    | notEnoughSpace => cases serialize buffer.sampleBuffer <;> split_ifs <;> rfl
    | notEnoughSpaceForNext =>
      cases s.serializedPacket <;> cases serialize buffer.sampleBuffer <;> split_ifs <;> rfl
    | timeout =>
      cases s.serializedPacket <;> cases serialize buffer.sampleBuffer <;> split_ifs <;> rfl

/-! ### Whether a push is refused -/

/-- A sum that `i64` can hold -/
def InRange (v : ℤ) : Prop := -2 ^ 63 ≤ v ∧ v < 2 ^ 63

lemma checkedI64_of_inRange {v : ℤ} (h : InRange v) : ∃ r, checkedI64 v = some r ∧ r.toInt = v :=
  checkedI64_eq h.1 h.2

lemma checkedI64_eq_none {v : ℤ} (h : ¬ InRange v) : checkedI64 v = none := if_neg h

lemma extendAxes_fits (data : SampleData α nAxes max) {axes : List (Fin nAxes)} (hnodup : axes.Nodup)
    (ch : Fin nAxes → HVec α max) : (SerializingBuffer.extendAxes data axes ch).1 = true ↔
      ∀ i ∈ axes, (ch i).len + data.len ≤ max := by
  induction axes generalizing ch with
  | nil => simp [SerializingBuffer.extendAxes]
  | cons i axes ih =>
    obtain ⟨hi, hnodup⟩ := List.nodup_cons.mp hnodup
    by_cases hfit : (ch i).len + data.len ≤ max
    · have hlen : ((ch i).toList ++ data.slice i).length ≤ max := by
        rw [List.length_append, length_slice]
        exact hfit
      have hextend : (ch i).extendFromSlice (data.slice i) =
          some ⟨(ch i).toList ++ data.slice i, hlen⟩ := HVec.extendFromSlice_eq_some.mpr rfl
      rw [SerializingBuffer.extendAxes, hextend]
      dsimp only
      rw [ih hnodup, List.forall_mem_cons, and_iff_right hfit]
      apply forall₂_congr
      intro j hj
      have hne : j ≠ i := by
        rintro rfl
        exact hi hj
      rw [if_neg hne]
    · have hextend : (ch i).extendFromSlice (data.slice i) = none := by
        apply dif_neg
        rw [List.length_append, length_slice]
        exact hfit
      rw [SerializingBuffer.extendAxes, hextend]
      simp [hfit]

namespace SerializingBuffer

variable {b b' : SerializingBuffer α nAxes max} {data : SampleData α nAxes max}

/-- The timestamp that the data is compared with -/
def compared (b : SerializingBuffer α nAxes max) (data : SampleData α nAxes max) : Int64 :=
  if b.isEmpty then data.tLast else b.lastTimestamp

/-- The buffer refuses the data: it has too few places left, or the data does not follow on what it
holds, or one of its channels is too full. -/
def Refuses (b : SerializingBuffer α nAxes max) (data : SampleData α nAxes max) : Prop :=
  max < b.len + data.len ∨
    InRange ((b.compared data).toInt + b.tDeltaUs.toInt) ∧
      ((b.compared data).toInt + b.tDeltaUs.toInt < data.t.toInt ∨
        ∃ i, max < (b.sampleBuffer.ch i).len + data.len)

lemma stamp_eq (b : SerializingBuffer α nAxes max) (data : SampleData α nAxes max) :
    (b.stamp data).lastTimestamp = b.compared data ∧ (b.stamp data).tDeltaUs = b.tDeltaUs ∧
      (b.stamp data).sampleBuffer.ch = b.sampleBuffer.ch := by
  unfold stamp compared
  split
  · exact ⟨rfl, rfl, rfl⟩
  · exact ⟨rfl, rfl, rfl⟩

lemma push_refused (h : b.Refuses data) : ∃ status b', b.push data = some (status, b') ∧
    (status = .notContiguous ∨ status = .notEnoughSpace) ∧ b'.tDeltaUs = b.tDeltaUs := by
  obtain ⟨hlast, hdelta, hch⟩ := stamp_eq b data
  unfold push
  by_cases hfull : max < b.len + data.len
  · exact ⟨_, _, if_pos hfull, .inr rfl, rfl⟩
  · obtain ⟨hrange, hcase⟩ := h.resolve_left hfull
    obtain ⟨limit, hlimit, hvalue⟩ := checkedI64_of_inRange hrange
    rw [if_neg hfull]
    simp only [hlast, hdelta, hlimit, Option.bind_eq_bind, Option.bind_some]
    by_cases hbehind : limit.toInt < data.t.toInt
    · rw [if_pos hbehind]
      exact ⟨_, _, rfl, .inl rfl, hdelta⟩
    · have hover := hcase.resolve_left (by omega)
      have hfits : (extendAxes data (List.finRange nAxes) (b.stamp data).sampleBuffer.ch).1 = false := by
        rw [← Bool.not_eq_true, extendAxes_fits data (List.nodup_finRange nAxes), hch]
        obtain ⟨i, hi⟩ := hover
        intro hall
        have := hall i (List.mem_finRange i)
        omega
      rw [if_neg hbehind]
      simp only [hfits, Bool.not_false, if_true]
      exact ⟨_, _, rfl, .inr rfl, rfl⟩

lemma push_accepted (h : ¬ b.Refuses data) : b.push data = none ∨
    ∃ status b', b.push data = some (status, b') ∧
      (status = .ok ∨ status = .notEnoughSpaceForNext ∨ status = .timeout) := by
  obtain ⟨hlast, hdelta, hch⟩ := stamp_eq b data
  simp only [Refuses, not_or, not_and, not_exists] at h
  obtain ⟨hfull, hcase⟩ := h
  unfold push
  rw [if_neg hfull]
  by_cases hrange : InRange ((b.compared data).toInt + b.tDeltaUs.toInt)
  · obtain ⟨limit, hlimit, hvalue⟩ := checkedI64_of_inRange hrange
    obtain ⟨hbehind, hroom⟩ := hcase hrange
    have hfits : (extendAxes data (List.finRange nAxes) (b.stamp data).sampleBuffer.ch).1 = true := by
      rw [extendAxes_fits data (List.nodup_finRange nAxes), hch]
      intro i _
      have := hroom i
      omega
    simp only [hlast, hdelta, hlimit, Option.bind_eq_bind, Option.bind_some]
    rw [if_neg (by omega)]
    simp only [hfits, Bool.not_true, Bool.false_eq_true, if_false]
    cases checkedI64 (data.tLast.toInt - (b.stamp data).sampleBuffer.t.toInt) with
    | none => exact .inl rfl
    | some dtUs =>
      right
      simp only [Option.bind_some]
      split
      · exact ⟨_, _, rfl, .inr (.inr rfl)⟩
      · split
        · exact ⟨_, _, rfl, .inr (.inl rfl)⟩
        · exact ⟨_, _, rfl, .inl rfl⟩
  · left
    simp only [hlast, hdelta, checkedI64_eq_none hrange, Option.bind_eq_bind, Option.bind_none]

end SerializingBuffer

/-- The data starts more than `tDeltaUs` behind its own end. -/
def StartsBehind (tDeltaUs : Int64) (data : SampleData α nAxes max) : Prop :=
  InRange (data.tLast.toInt + tDeltaUs.toInt) ∧ data.tLast.toInt + tDeltaUs.toInt < data.t.toInt

/-- A cleared buffer refuses only such data. -/
lemma refuses_clear_iff (b : SerializingBuffer α nAxes max) (data : SampleData α nAxes max) :
    b.clear.Refuses data ↔ StartsBehind b.tDeltaUs data := by
  have hempty : b.clear.len = 0 := by
    show (UniformSamples.empty b.sampleBuffer.fs : UniformSamples α nAxes max).len = 0
    rw [UniformSamples.len]
    exact if_pos rfl
  have hcompared : b.clear.compared data = data.tLast := if_pos (decide_eq_true hempty)
  have hdata : data.len ≤ max := data.len_le.trans data.capacity_le
  have hroom : ∀ i, ¬ max < (b.clear.sampleBuffer.ch i).len + data.len := by
    intro i
    show ¬ max < 0 + data.len
    omega
  unfold SerializingBuffer.Refuses StartsBehind
  rw [hempty, hcompared]
  constructor
  · rintro (hfull | ⟨hrange, hbehind | ⟨i, hi⟩⟩)
    · omega
    · exact ⟨hrange, hbehind⟩
    · exact absurd hi (hroom i)
  · rintro ⟨hrange, hbehind⟩
    exact .inr ⟨hrange, .inl hbehind⟩

/-! ### The turns -/

section Turns

variable {data : SampleData α nAxes max} {s : Retry α P nAxes max}

/-- The data is refused: the buffer is serialized and cleared, and only a second failure ends the
loop. -/
lemma pushDataTurn_refused (serialized : UniformSamples α nAxes max → Option P)
    (h : s.buffer.Refuses data) :
    ∃ b' : SerializingBuffer α nAxes max, b'.tDeltaUs = s.buffer.tDeltaUs ∧
      pushDataTurn data serialized s = match serialized b'.sampleBuffer with
        | some packet => .again ⟨s.turns + 1, some packet, s.numTries, b'.clear⟩
        | none =>
          if 1 ≤ s.numTries then .stop (some (.serializationFailed, b'.clear))
          else .again ⟨s.turns + 1, s.serializedPacket, s.numTries + 1, b'.clear⟩ := by
  obtain ⟨status, b', hpush, hstatus, hdelta⟩ := SerializingBuffer.push_refused h
  refine ⟨b', hdelta, ?_⟩
  unfold pushDataTurn
  rw [hpush]
  rcases hstatus with rfl | rfl
  · cases hserialized : serialized b'.sampleBuffer <;> simp [hserialized]
  · cases hserialized : serialized b'.sampleBuffer <;> simp [hserialized]

/-- The data is inserted, or the call panics. -/
lemma pushDataTurn_accepted (serialized : UniformSamples α nAxes max → Option P)
    (h : ¬ s.buffer.Refuses data) :
    ∃ r, pushDataTurn data serialized s = .stop r := by
  unfold pushDataTurn
  obtain hpush | ⟨status, b', hpush, hstatus⟩ := SerializingBuffer.push_accepted h
  · rw [hpush]
    exact ⟨_, rfl⟩
  · rw [hpush]
    have hinserted : ∀ shouldSerialize : Bool, ∃ r : PushEnd α P nAxes max,
        (if shouldSerialize then
          match serialized b'.sampleBuffer with
          | some packet => Turn.stop (some (BufferResult.serialized packet, b'.clear))
          | none =>
            if 1 ≤ s.numTries then .stop (some (.serializationFailed, b'.clear))
            else .stop (some (.ofPacket s.serializedPacket, b'.clear))
        else .stop (some (.ofPacket s.serializedPacket, b')) : Turn _ (Retry α P nAxes max)) =
          .stop r := by
      intro shouldSerialize
      split
      · split
        · exact ⟨_, rfl⟩
        · split <;> exact ⟨_, rfl⟩
      · exact ⟨_, rfl⟩
    rcases hstatus with rfl | rfl | rfl
    · exact hinserted b'.isFull
    · exact hinserted s.serializedPacket.isNone
    · exact hinserted s.serializedPacket.isNone

end Turns

/-! ### Whether the loop ends -/

section Ending

variable {data : SampleData α nAxes max} {results : ℕ → Option P} {b : SerializingBuffer α nAxes max}
variable {s s' : Retry α P nAxes max}

/-- The loop, where `results` are what the calls of the serializer return, in their order -/
def retryTurn (data : SampleData α nAxes max) (results : ℕ → Option P) (s : Retry α P nAxes max) :
    Turn (PushEnd α P nAxes max) (Retry α P nAxes max) :=
  pushDataTurn data (fun _ => results s.turns) s

/-- Where `push_data` starts -/
def Retry.start (b : SerializingBuffer α nAxes max) : Retry α P nAxes max := ⟨0, none, 0, b⟩

/-- The call ends, with a result or a panic. -/
def PushDataEnds (results : ℕ → Option P) (b : SerializingBuffer α nAxes max)
    (data : SampleData α nAxes max) : Prop :=
  Ends (retryTurn data results) (Retry.start b)

/-- What a turn that goes on leaves. -/
lemma retryTurn_again (h : retryTurn data results s = .again s') :
    s'.turns = s.turns + 1 ∧ (∃ b' : SerializingBuffer α nAxes max,
      b'.tDeltaUs = s.buffer.tDeltaUs ∧ s'.buffer = b'.clear) ∧
      (results s.turns ≠ none ∧ s'.numTries = s.numTries ∨
        results s.turns = none ∧ s.numTries = 0 ∧ s'.numTries = 1) := by
  unfold retryTurn at h
  by_cases href : s.buffer.Refuses data
  · obtain ⟨b', hdelta, hturn⟩ := pushDataTurn_refused (fun _ => results s.turns) href
    rw [hturn] at h
    cases hresult : results s.turns with
    | some packet =>
      simp only [hresult, Turn.again.injEq] at h
      subst h
      exact ⟨rfl, ⟨b', hdelta, rfl⟩, .inl ⟨nofun, rfl⟩⟩
    | none =>
      simp only [hresult] at h
      split at h
      · cases h
      next htries =>
        cases h
        exact ⟨rfl, ⟨b', hdelta, rfl⟩, .inr ⟨rfl, by omega, by simp; omega⟩⟩
  · obtain ⟨r, hstop⟩ := pushDataTurn_accepted (fun _ => results s.turns) href
    rw [hstop] at h
    cases h

/-- A second failure ends the loop. -/
lemma ends_of_two_failures {j k : ℕ} (hlt : j < k) (hj : results j = none) (hk : results k = none) :
    PushDataEnds results b data := by
  unfold PushDataEnds
  -- once turn `j` is over a failure is counted, so that turn `k` does not go on
  apply Ends.of_bound (I := fun s => s.turns ≤ k ∧ (j < s.turns → 1 ≤ s.numTries))
    (fun s => k - s.turns)
  · rintro s s' ⟨hle, hcount⟩ hagain
    obtain ⟨hturns, -, hcase⟩ := retryTurn_again hagain
    have hne : s.turns ≠ k := by
      intro heq
      have hone := hcount (by omega)
      rw [heq] at hcase
      rcases hcase with ⟨hresult, -⟩ | ⟨-, hzero, -⟩
      · exact hresult hk
      · omega
    refine ⟨⟨by omega, ?_⟩, by omega⟩
    intro hjlt
    rcases hcase with ⟨hresult, htries⟩ | ⟨-, -, hone⟩
    · have hjne : s.turns ≠ j := by
        intro heq
        exact hresult (heq ▸ hj)
      rw [htries]
      exact hcount (by omega)
    · omega
  · exact ⟨Nat.zero_le k, fun hneg => absurd hneg (Nat.not_lt_zero j)⟩

/-- Data that starts behind its own end is refused again. -/
lemma retryTurn_stuck (href : s.buffer.Refuses data) (hbehind : StartsBehind s.buffer.tDeltaUs data)
    (htries : results s.turns = none → s.numTries = 0) :
    ∃ s', retryTurn data results s = .again s' ∧ s'.buffer.Refuses data ∧
      s'.buffer.tDeltaUs = s.buffer.tDeltaUs := by
  obtain ⟨b', hdelta, hturn⟩ := pushDataTurn_refused (fun _ => results s.turns) href
  have hclear : b'.clear.Refuses data := by
    rw [refuses_clear_iff, hdelta]
    exact hbehind
  unfold retryTurn
  rw [hturn]
  cases hresult : results s.turns with
  | some packet => exact ⟨_, rfl, hclear, hdelta⟩
  | none =>
    have hzero := htries hresult
    exact ⟨_, if_neg (by omega), hclear, hdelta⟩

/-- A loop for ever: every turn finds a buffer that refuses the data, and counts at most one failure. -/
lemma not_pushDataEnds (href : b.Refuses data) (hbehind : StartsBehind b.tDeltaUs data)
    (honce : ∀ j k, j < k → results j = none → results k ≠ none) : ¬ PushDataEnds results b data := by
  apply Ends.not_of_invariant (I := fun s => s.buffer.Refuses data ∧
    s.buffer.tDeltaUs = b.tDeltaUs ∧ (s.numTries ≠ 0 → ∃ j < s.turns, results j = none))
  · rintro s ⟨href, hdelta, hcount⟩
    have htries : results s.turns = none → s.numTries = 0 := by
      intro hresult
      by_contra hne
      obtain ⟨j, hj, hfailed⟩ := hcount hne
      exact honce j s.turns hj hfailed hresult
    obtain ⟨s', hagain, href', hdelta'⟩ := retryTurn_stuck href (hdelta ▸ hbehind) htries
    obtain ⟨hturns, -, hcase⟩ := retryTurn_again hagain
    refine ⟨s', hagain, href', hdelta'.trans hdelta, ?_⟩
    intro hne
    rcases hcase with ⟨-, htries'⟩ | ⟨hresult, -, -⟩
    · obtain ⟨j, hj, hfailed⟩ := hcount (htries' ▸ hne)
      exact ⟨j, by omega, hfailed⟩
    · exact ⟨s.turns, by omega, hresult⟩
  · exact ⟨href, rfl, fun hne => absurd rfl hne⟩

/-- A cleared buffer accepts other data. -/
lemma ends_of_not_behind (hbehind : ¬ StartsBehind b.tDeltaUs data) : PushDataEnds results b data := by
  cases hfirst : retryTurn data results (Retry.start b) with
  | stop r => exact .stop hfirst
  | again s' =>
    obtain ⟨-, ⟨b', hdelta, hbuffer⟩, -⟩ := retryTurn_again hfirst
    have haccepts : ¬ s'.buffer.Refuses data := by
      rw [hbuffer, refuses_clear_iff, hdelta]
      exact hbehind
    obtain ⟨r, hstop⟩ := pushDataTurn_accepted (fun _ => results s'.turns) haccepts
    exact .again hfirst (.stop hstop)

/-- **When `push_data` ends**, for every buffer, all data and all results of the serializer: it does not
if and only if the buffer refuses the data, the data starts behind its own end, and the serializer fails
at most once. -/
theorem pushDataEnds_iff (results : ℕ → Option P) (b : SerializingBuffer α nAxes max)
    (data : SampleData α nAxes max) : PushDataEnds results b data ↔
      ¬ (b.Refuses data ∧ StartsBehind b.tDeltaUs data ∧
        ∀ j k, j < k → results j = none → results k ≠ none) := by
  constructor
  · rintro hends ⟨href, hbehind, honce⟩
    exact not_pushDataEnds href hbehind honce hends
  · intro hnot
    by_cases hbehind : StartsBehind b.tDeltaUs data
    · by_cases href : b.Refuses data
      · simp only [href, hbehind, true_and, not_forall, not_not] at hnot
        obtain ⟨j, k, hlt, hj, hk⟩ := hnot
        exact ends_of_two_failures hlt hj hk
      · obtain ⟨r, hstop⟩ := pushDataTurn_accepted (s := Retry.start b) (fun _ => results 0) href
        exact .stop hstop
    · exact ends_of_not_behind hbehind

/-- One sample at -1000 Hz, the bits of which are `0xC47A0000` -/
def sampleBehind : SampleData ℕ 1 4 where
  capacity := 1
  capacity_le := by omega
  t := 1000
  len := 1
  len_le := Nat.le_refl 1
  samples _ _ := 7
  tLast := 1000
  fs := 0xC47A0000

/-- At this frequency the sample interval is negative, and an empty buffer refuses the sample for ever
when the serializer does not fail. -/
theorem push_data_loops : ∃ b : SerializingBuffer ℕ 1 4,
    SerializingBuffer.empty (fun _ => -1000) 0xC47A0000 60000000 = some b ∧
      ¬ PushDataEnds (fun _ => some ()) b sampleBehind := by
  refine ⟨_, rfl, ?_⟩
  have hbehind : StartsBehind (-2000) sampleBehind := by
    unfold StartsBehind InRange
    decide
  apply not_pushDataEnds
  · exact (refuses_clear_iff (⟨UniformSamples.empty 0xC47A0000, 0, -2000, 60000000⟩ :
      SerializingBuffer ℕ 1 4) sampleBehind).mpr hbehind
  · exact hbehind
  · intro _ _ _ hnone
    cases hnone

end Ending

end SensorLink.Dispatch
