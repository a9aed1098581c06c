import SensorLink.Samples.Parser

/-!
# The two decoders agree

`parseToNchannel_eq` says what the parser of the server does with any bytes, in terms of the wire
format; what the decoder of the device does is `fromTopicData_eq_ok`. A message with NaNs is rejected
by the Q15 parser only, and without channels the two count the samples differently.
-/

namespace SensorLink.Samples

open SensorLink.Lib

variable {p nCh max n : ℕ}

/-! ### Samples of a channel -/

/-- The first `n` samples of the channel -/
def Q15Channel.valueList (n : ℕ) (channel : Q15Channel max) : List Value :=
  (List.range n).map fun i => ⟨channel.sample i, channel.exponent⟩

/-- Sample `i` of a channel on the wire -/
def wireValue (src : List UInt8) (i : ℕ) : Value :=
  ⟨i16FromBytes (((src.drop 1).drop (i * 2)).take 2), i8FromLeBytes (src.take 1)⟩

lemma valueList_channelOf (hn : n ≤ max) (src : List UInt8) :
    (channelOf max n src).valueList n = (List.range n).map (wireValue src) := by
  refine List.map_congr_left fun i hi => ?_
  have hin := List.mem_range.mp hi
  have hsample : (channelOf max n src).sample i =
      i16FromBytes (((src.drop 1).drop (i * 2)).take 2) := by
    rw [Q15Channel.sample, dif_pos (by omega)]
    exact if_pos hin
  rw [hsample]
  rfl

/-! ### The device -/

lemma pushUnwrap_eq {ε : Type} {vec vec' : HVec Value max} {value : Value}
    (h : vec'.toList = vec.toList ++ [value]) :
    (pushUnwrap vec value : Attempt ε _) = .ok vec' := by
  unfold pushUnwrap HVec.push
  rw [HVec.extendFromSlice_eq_some.mpr h]

/-- The inner loop of `as_uniform`. -/
lemma pushSamples_eq {ε : Type} (hn : n ≤ max) (src : Q15Channel max) {vec : HVec Value max}
    (h : vec.toList = src.valueList n) :
    (forRange n HVec.empty fun sampleIdx resCh => do
      let mantissa ← arrayGet src.values sampleIdx
      pushUnwrap resCh ⟨mantissa, src.exponent⟩ : Attempt ε _) = .ok vec := by
  -- the vector after `i` samples
  let I (i : ℕ) : HVec Value max := ⟨(src.valueList i).take max, List.length_take_le _ _⟩
  have hI : ∀ i ≤ n, (I i).toList = src.valueList i := by
    intro i hi
    apply List.take_of_length_le
    simp only [Q15Channel.valueList, List.length_map, List.length_range]
    omega
  have hzero : I 0 = HVec.empty := by
    ext1
    exact hI 0 (Nat.zero_le n)
  have hend : I n = vec := by
    ext1
    rw [hI n le_rfl, h]
  rw [← hzero, ← hend]
  refine forRange_ok I fun i hi => ?_
  have hsample : src.values ⟨i, by omega⟩ = src.sample i := by
    rw [Q15Channel.sample, dif_pos (by omega)]
  rw [arrayGet_ok (by omega), ok_bind, hsample]
  apply pushUnwrap_eq
  rw [hI (i + 1) hi, hI i hi.le, Q15Channel.valueList, Q15Channel.valueList, List.range_succ,
    List.map_append]
  rfl

/-- What the device stores of the packet -/
def Uniform.samples (x : Uniform p nCh max) : UniformSamples Value nCh max where
  t := x.t
  fs := x.fs
  ch c := ⟨(x.data.ch c).valueList x.data.numSamples, by
    simpa [Q15Channel.valueList] using x.data.numSamples_le⟩

lemma Uniform.asUniform_eq {ε : Type} (x : Uniform p nCh max) :
    (x.asUniform : Attempt ε _) = .ok x.samples := by
  have hloop : (forRange nCh (fun _ : Fin nCh => (HVec.empty : HVec Value max)) fun chI ch => do
      let src ← arrayGet x.data.ch chI
      let resCh ← arrayGet ch chI
      let resCh ← forRange x.data.numSamples resCh fun sampleIdx resCh => do
        let mantissa ← arrayGet src.values sampleIdx
        pushUnwrap resCh ⟨mantissa, src.exponent⟩
      arraySet ch chI resCh : Attempt ε _) = .ok x.samples.ch := by
    refine forRange_fill_all fun c ch hcur => ?_
    have hinner := pushSamples_eq (ε := ε) x.data.numSamples_le (x.data.ch c)
      (show (x.samples.ch c).toList = _ from rfl)
    rw [arrayGet_ok c.isLt, ok_bind, arrayGet_ok c.isLt, ok_bind, hcur, hinner, ok_bind]
  unfold Uniform.asUniform
  rw [ensure_pos x.data.numSamples_le, ok_bind]
  simp only [UniformSamples.emptyAt, hloop, ok_bind]
  rfl

/-! ### The server -/

/-- A NaN among the first `n` samples of the slice -/
def wireNan (n : ℕ) (src : List UInt8) : Bool :=
  (List.range n).any fun i => (wireValue src i).isNan

lemma parseSamples_eq (allowNan : Bool) {src : List UInt8} (h : src.length = channelSize n) :
    parseSamples allowNan n (i8FromLeBytes (src.take 1)) (src.drop 1) [] =
      if wireNan n src && !allowNan then .error (.err .invalid)
      else .ok ((List.range n).map (wireValue src)) := by
  unfold channelSize at h
  have hany : (wireNan n src && !allowNan) =
      (List.range n).any fun i => (wireValue src i).isNan && !allowNan := by
    cases allowNan <;> simp [wireNan]
  rw [hany]
  refine forRange_check (fun i => (List.range i).map (wireValue src)) _ fun i hi => ?_
  have hlen : (src.drop 1).length = 2 * n := by rw [List.length_drop]; omega
  have hhi : i * 2 + 1 < (src.drop 1).length := by omega
  rw [index_ok (by omega), ok_bind, index_ok hhi, ok_bind, ← take_two_drop hhi, List.range_succ,
    List.map_append]
  rfl

/-- The channels on the wire, each with its `n` samples -/
def wireChannel (n : ℕ) (data : List UInt8) (c : ℕ) : List UInt8 :=
  (data.drop (c * channelSize n)).take (channelSize n)

lemma length_wireChannel {data : List UInt8} {c : ℕ} (hc : c < nCh)
    (h : nCh * channelSize n ≤ data.length) : (wireChannel n data c).length = channelSize n := by
  have hle : (c + 1) * channelSize n ≤ data.length := (Nat.mul_le_mul_right _ hc).trans h
  rw [Nat.succ_mul] at hle
  rw [wireChannel, List.length_take, List.length_drop]
  omega

/-- The outer loop of the parsers. -/
lemma parseChannels_eq (allowNan : Bool) {data : List UInt8}
    (h : nCh * channelSize n ≤ data.length) :
    (forRange nCh (fun _ : Fin nCh => ([] : List Value)) fun chIdx channels => do
      let chBytes ← slice data (chIdx * channelSize n) (chIdx * channelSize n + channelSize n)
      let exponent ← index chBytes 0
      let sampleBytes ← sliceFrom chBytes 1
      let channel ← arrayGet channels chIdx
      let channel ← parseSamples allowNan n (i8FromLeBytes [exponent]) sampleBytes channel
      arraySet channels chIdx channel) =
      if (List.range nCh).any fun c => wireNan n (wireChannel n data c) && !allowNan then
        .error (.err .invalid)
      else .ok fun c => (List.range n).map (wireValue (wireChannel n data c)) := by
  refine forRange_fill_all_check _ fun c a hcur => ?_
  have hlen : (wireChannel n data c).length = channelSize n := length_wireChannel c.isLt h
  have hle : c * channelSize n + channelSize n ≤ data.length := by
    rw [← Nat.succ_mul]
    exact (Nat.mul_le_mul_right _ c.isLt).trans h
  have hslice : (data.take (c * channelSize n + channelSize n)).drop (c * channelSize n) =
      wireChannel n data c := by
    rw [List.drop_take, Nat.add_sub_cancel_left, wireChannel]
  have hpos : 0 < (wireChannel n data c).length := by
    rw [hlen, channelSize]
    omega
  have hone : [(wireChannel n data c)[0]] = (wireChannel n data c).take 1 :=
    (List.take_one_drop_eq_of_lt_length hpos).symm.trans (by simp)
  rw [slice_ok (Nat.le_add_right _ _) hle, ok_bind, hslice, index_ok hpos, ok_bind,
    sliceFrom_ok hpos, ok_bind, arrayGet_ok c.isLt, ok_bind, hcur, hone, parseSamples_eq _ hlen]
  split
  · rfl
  · rfl

lemma uniformTimestamps_eq_some {interval : UInt32 → Int64} {t : Int64} {fs : UInt32}
    {ts : List Int64} :
    uniformTimestamps interval t fs n = some ts ↔
      (∀ i < n, sampleTimestamp interval t fs i ≠ none) ∧
        ts = (List.range n).map fun i => (sampleTimestamp interval t fs i).getD Int64.maxValue := by
  simp only [← List.mem_range, uniformTimestamps]
  induction List.range n generalizing ts with
  | nil => simp [eq_comm]
  | cons i l ih =>
    rw [List.mapM_cons]
    cases hi : sampleTimestamp interval t fs i with
    | none => simp [hi]
    | some v =>
      simp only [Option.bind_eq_bind, Option.bind_some, Option.bind_eq_some_iff, ih]
      constructor
      · rintro ⟨rest, ⟨hrest, rfl⟩, hts⟩
        cases hts
        simpa [hi] using hrest
      · rintro ⟨hall, rfl⟩
        exact ⟨_, ⟨fun j hj => hall j (List.mem_cons_of_mem i hj), rfl⟩, by simp [hi]⟩

/-- **What the parsers do with any bytes.** -/
lemma parseToNchannel_eq (interval : UInt32 → Int64) (allowNan : Bool) (bytes : List UInt8) :
    parseToNchannel p nCh interval allowNan bytes =
      if bytes.length < 12 then .error (.err (.deserialize "Buffer too small for header"))
      else if i64FromLeBytes (bytes.take 8) ≤ 0 then .error (.err .invalid)
      else if f32LeZero (f32FromLeBytes ((bytes.take 12).drop 8)) ||
          f32IsNan (f32FromLeBytes ((bytes.take 12).drop 8)) then .error (.err .invalid)
      else
        let packet := bytes.drop 12
        let n := lengthField p packet
        if packet.length < packetSize p nCh n then
          .error (.err (.deserialize ("Buffer too small: expected " ++
            toString (p + nCh * channelSize n) ++ " bytes, got " ++ toString packet.length)))
        else if (List.range nCh).any fun c =>
            wireNan n (wireChannel n (packet.drop p) c) && !allowNan then .error (.err .invalid)
        else
          match uniformTimestamps interval (i64FromLeBytes (bytes.take 8))
            (f32FromLeBytes ((bytes.take 12).drop 8)) n with
          | none => .error (.err .invalid)
          | some ts => .ok ⟨ts, f32FromLeBytes ((bytes.take 12).drop 8),
              fun c => (List.range n).map (wireValue (wireChannel n (packet.drop p) c))⟩ := by
  unfold parseToNchannel uniformHeaderOverhead
  by_cases hlen : bytes.length < 12
  · rw [if_pos hlen, if_pos hlen]
    rfl
  rw [if_neg hlen, if_neg hlen, slice_ok (by omega) (by omega), ok_bind,
    slice_ok (by omega) (by omega), ok_bind]
  simp only [List.drop_zero]
  split
  · rfl
  split
  · rfl
  rw [sliceFrom_ok (by omega), ok_bind]
  have hempty : packetSize p nCh 0 = 0 := if_pos (.inl rfl)
  by_cases hp : (bytes.drop 12).length < p
  · have hn : lengthField p (bytes.drop 12) = 0 := if_neg (by omega)
    rw [if_pos hp]
    simp [hn, hempty, wireNan, uniformTimestamps]
    rfl
  have hfield : ofLeBytes ((bytes.drop 12).take p) = lengthField p (bytes.drop 12) :=
    (if_pos (by omega)).symm
  rw [if_neg hp, slice_ok (Nat.zero_le _) (by omega), ok_bind, List.drop_zero, hfield]
  by_cases hn : lengthField p (bytes.drop 12) = 0
  · rw [if_pos hn]
    simp [hn, hempty, wireNan, uniformTimestamps]
    rfl
  have hsize : (bytes.drop 12).length < p + nCh * channelSize (lengthField p (bytes.drop 12)) ↔
      (bytes.drop 12).length < packetSize p nCh (lengthField p (bytes.drop 12)) := by
    unfold packetSize
    by_cases hch : nCh = 0
    · simp only [hch, or_true, if_true, Nat.zero_mul]
      omega
    · rw [if_neg (by omega)]
  rw [if_neg hn]
  by_cases hshort : (bytes.drop 12).length <
      packetSize p nCh (lengthField p (bytes.drop 12))
  · rw [if_pos hshort]
    exact if_pos (hsize.mpr hshort)
  have hdata : nCh * channelSize (lengthField p (bytes.drop 12)) ≤
      ((bytes.drop 12).drop p).length := by
    rw [List.length_drop]
    omega
  rw [if_neg hshort]
  refine (if_neg (mt hsize.mp hshort)).trans ?_
  rw [sliceFrom_ok (by omega), ok_bind]
  refine (congrArg (· >>= _) (parseChannels_eq allowNan hdata)).trans ?_
  split
  · rfl
  · rfl

/-! ### Agreement -/

namespace Uniform

/-- No timestamp of a sample overflows. -/
def TimestampsFit (interval : UInt32 → Int64) (x : Uniform p nCh max) : Prop :=
  ∀ i < x.data.numSamples, sampleTimestamp interval x.t x.fs i ≠ none

instance (interval : UInt32 → Int64) (x : Uniform p nCh max) : Decidable (x.TimestampsFit interval) := by
  unfold TimestampsFit
  infer_instance

/-- No sample is a NaN. -/
def NoNan (x : Uniform p nCh max) : Prop :=
  ∀ c, ∀ v ∈ (x.data.ch c).valueList x.data.numSamples, v.isNan = false

instance (x : Uniform p nCh max) : Decidable x.NoNan := by
  unfold NoNan
  infer_instance

/-- `NChannelSamples::from` of the decoded message -/
def toNchannel {ε : Type} (interval : UInt32 → Int64) (x : Uniform p nCh max) :
    Attempt ε (NChannelSamples Value nCh) := do
  let samples ← x.asUniform
  pure (NChannelSamples.ofUniformSamples interval samples)

/-- The samples of the message, each with its timestamp -/
def expanded (interval : UInt32 → Int64) (x : Uniform p nCh max) : NChannelSamples Value nCh where
  t := (List.range x.data.numSamples).map fun i =>
    (sampleTimestamp interval x.t x.fs i).getD Int64.maxValue
  fs := x.fs
  ch c := (x.data.ch c).valueList x.data.numSamples

lemma toNchannel_eq {ε : Type} (interval : UInt32 → Int64) {x : Uniform p nCh max}
    (hch : 0 < nCh) (ht : x.t ≠ 0) :
    (x.toNchannel interval : Attempt ε _) = .ok (x.expanded interval) := by
  have hlen : x.samples.len = x.data.numSamples :=
    UniformSamples.len_eq hch ht fun c => by
      simp [samples, HVec.len, Q15Channel.valueList]
  unfold toNchannel
  rw [asUniform_eq, ok_bind, NChannelSamples.ofUniformSamples, hlen]
  rfl

lemma valueList_ofBytes {packet : List UInt8} (h : lengthField p packet ≤ max) (c : Fin nCh) :
    ((Packet.ofBytes p nCh max packet h).ch c).valueList (lengthField p packet) =
      (List.range (lengthField p packet)).map
        (wireValue (wireChannel (lengthField p packet) (packet.drop p) c)) := by
  by_cases hn : lengthField p packet = 0
  · simp [hn, Q15Channel.valueList]
  · simp only [Packet.ofBytes, if_neg hn]
    exact valueList_channelOf h _

end Uniform

lemma parseToNchannel_no_panic (interval : UInt32 → Int64) (allowNan : Bool)
    (bytes : List UInt8) : parseToNchannel p nCh interval allowNan bytes ≠ .error .panic := by
  rw [parseToNchannel_eq]
  dsimp only
  repeat' split
  all_goals simp

lemma fromTopicData_no_panic (bytes : List UInt8) :
    Uniform.fromTopicData p nCh max bytes ≠ .error .panic := by
  by_cases h : bytes.length < 12
  · rw [Uniform.fromTopicData_short h]
    simp
  rw [Uniform.fromTopicData_long (by omega), Packet.fromBytes_eq]
  split
  · simp [Attempt.mapErr]
  split
  · simp [Attempt.mapErr]
  · simp only [Attempt.mapErr, ok_bind]
    split <;> simp

/-- The value of a message that the device accepts -/
def uniformOf (nCh max : ℕ) (bytes : List UInt8) (h : lengthField p (bytes.drop 12) ≤ max) :
    Uniform p nCh max :=
  ⟨i64FromLeBytes (bytes.take 8), f32FromLeBytes ((bytes.take 12).drop 8),
    Packet.ofBytes p nCh max (bytes.drop 12) h⟩

lemma fromTopicData_eq_uniformOf {bytes : List UInt8} (h : lengthField p (bytes.drop 12) ≤ max)
    {x : Uniform p nCh max} :
    Uniform.fromTopicData p nCh max bytes = .ok x ↔
      12 ≤ bytes.length ∧ (uniformOf nCh max bytes h).verify = true ∧
        packetSize p nCh (lengthField p (bytes.drop 12)) ≤ (bytes.drop 12).length ∧
        x = uniformOf nCh max bytes h := by
  rw [Uniform.fromTopicData_eq_ok]
  constructor
  · rintro ⟨hlen, ht, hfs, hpacket, hverify⟩
    obtain ⟨hsize, _, hdata⟩ := Packet.fromBytes_eq_ok.mp hpacket
    obtain ⟨t, fs, data⟩ := x
    simp only at ht hfs hdata
    subst ht hfs hdata
    exact ⟨hlen, hverify, hsize, rfl⟩
  · rintro ⟨hlen, hverify, hsize, rfl⟩
    exact ⟨hlen, rfl, rfl, Packet.fromBytes_ok h hsize, hverify⟩

lemma noNan_uniformOf {bytes : List UInt8} (h : lengthField p (bytes.drop 12) ≤ max)
    (allowNan : Bool) :
    ((List.range nCh).any fun c => wireNan (lengthField p (bytes.drop 12))
        (wireChannel (lengthField p (bytes.drop 12)) ((bytes.drop 12).drop p) c) && !allowNan) =
      false ↔ allowNan = true ∨ (uniformOf nCh max bytes h).NoNan := by
  have hlist := fun c : Fin nCh => Uniform.valueList_ofBytes h c
  cases allowNan with
  | true => simp
  | false =>
    simp only [Bool.not_false, Bool.and_true, List.any_eq_false, List.mem_range, wireNan,
      Bool.not_eq_true, Bool.false_eq_true, false_or]
    constructor
    · intro hnan c v hv
      have hv' : v ∈ (List.range (lengthField p (bytes.drop 12))).map (wireValue
          (wireChannel (lengthField p (bytes.drop 12)) ((bytes.drop 12).drop p) c)) :=
        hlist c ▸ hv
      obtain ⟨i, hi, rfl⟩ := List.mem_map.mp hv'
      exact hnan c c.isLt i (List.mem_range.mp hi)
    · intro hnan c hc i hi
      apply hnan ⟨c, hc⟩
      show wireValue _ i ∈ ((Packet.ofBytes p nCh max (bytes.drop 12) h).ch ⟨c, hc⟩).valueList
        (lengthField p (bytes.drop 12))
      rw [hlist ⟨c, hc⟩]
      exact List.mem_map.mpr ⟨i, List.mem_range.mpr hi, rfl⟩

lemma verify_uniformOf {bytes : List UInt8} (h : lengthField p (bytes.drop 12) ≤ max) :
    (uniformOf nCh max bytes h).verify = true ↔
      ¬ i64FromLeBytes (bytes.take 8) ≤ 0 ∧
        ¬ (f32LeZero (f32FromLeBytes ((bytes.take 12).drop 8)) ||
          f32IsNan (f32FromLeBytes ((bytes.take 12).drop 8))) = true := by
  simp only [uniformOf, Uniform.verify, Bool.and_eq_true, Int64.not_le, Bool.not_eq_true',
    Bool.not_eq_true]
  exact and_congr_left fun _ => decide_eq_true_iff

/-- What the parser accepts, and what it returns. -/
lemma parseToNchannel_eq_ok {interval : UInt32 → Int64} {allowNan : Bool} {bytes : List UInt8}
    (h : lengthField p (bytes.drop 12) ≤ max) {r : NChannelSamples Value nCh} :
    parseToNchannel p nCh interval allowNan bytes = .ok r ↔
      ∃ x : Uniform p nCh max, Uniform.fromTopicData p nCh max bytes = .ok x ∧
        x.TimestampsFit interval ∧ (allowNan = true ∨ x.NoNan) ∧ r = x.expanded interval := by
  have hexpanded : ∀ ts, ts = ((uniformOf nCh max bytes h).expanded interval).t →
      (⟨ts, f32FromLeBytes ((bytes.take 12).drop 8), fun c =>
        (List.range (lengthField p (bytes.drop 12))).map (wireValue (wireChannel
          (lengthField p (bytes.drop 12)) ((bytes.drop 12).drop p) c))⟩ :
        NChannelSamples Value nCh) = (uniformOf nCh max bytes h).expanded interval := by
    rintro ts rfl
    simp only [Uniform.expanded, NChannelSamples.mk.injEq, true_and]
    exact ⟨rfl, funext fun c => (Uniform.valueList_ofBytes h c).symm⟩
  rw [parseToNchannel_eq]
  constructor
  · intro hr
    dsimp only at hr
    split at hr
    · cases hr
    split at hr
    · cases hr
    split at hr
    · cases hr
    split at hr
    · cases hr
    split at hr
    · cases hr
    split at hr
    · cases hr
    next hlen ht hfs hsize hnan _ ts hts =>
      obtain ⟨hfit, hts⟩ := uniformTimestamps_eq_some.mp hts
      refine ⟨uniformOf nCh max bytes h, ?_, hfit, ?_, ?_⟩
      · exact (fromTopicData_eq_uniformOf h).mpr
          ⟨by omega, (verify_uniformOf h).mpr ⟨ht, hfs⟩, by omega, rfl⟩
      · exact (noNan_uniformOf h allowNan).mp (by simpa using hnan)
      · cases hr
        exact hexpanded ts hts
  · rintro ⟨x, hx, hfit, hnan, rfl⟩
    obtain ⟨hlen, hverify, hsize, rfl⟩ := (fromTopicData_eq_uniformOf h).mp hx
    obtain ⟨ht, hfs⟩ := (verify_uniformOf h).mp hverify
    have hts := uniformTimestamps_eq_some.mpr ⟨hfit, rfl⟩
    have hany := (noNan_uniformOf h allowNan).mpr hnan
    rw [if_neg (by omega), if_neg ht, if_neg hfs]
    dsimp only
    rw [if_neg (by omega), if_neg (by rw [hany]; exact Bool.false_ne_true)]
    simp only [uniformOf, Packet.ofBytes] at hts
    rw [hts]
    exact congrArg _ (hexpanded _ rfl)

/-- A parser of the server and the decoder of the device agree on the bytes: the parser accepts the
messages that the decoder accepts and that satisfy `keep`, up to overflowing timestamps, and returns the
same samples. -/
structure Agree (interval : UInt32 → Int64)
    (parse : List UInt8 → Attempt ParseError (NChannelSamples Value nCh))
    (keep : Uniform p nCh max → Prop) (bytes : List UInt8) : Prop where
  accept : (∃ r, parse bytes = .ok r) ↔
    ∃ x, Uniform.fromTopicData p nCh max bytes = .ok x ∧ x.TimestampsFit interval ∧ keep x
  result : 0 < nCh → ∀ r x, parse bytes = .ok r → Uniform.fromTopicData p nCh max bytes = .ok x →
    (x.toNchannel interval : Attempt ParseError _) = .ok r

lemma agree (interval : UInt32 → Int64) (allowNan : Bool) {bytes : List UInt8}
    (h : lengthField p (bytes.drop 12) ≤ max) :
    Agree interval (parseToNchannel p nCh interval allowNan)
      (fun x : Uniform p nCh max => allowNan = true ∨ x.NoNan) bytes := by
  constructor
  · constructor
    · rintro ⟨r, hr⟩
      obtain ⟨x, hx, hfit, hnan, -⟩ := (parseToNchannel_eq_ok h).mp hr
      exact ⟨x, hx, hfit, hnan⟩
    · rintro ⟨x, hx, hfit, hnan⟩
      exact ⟨_, (parseToNchannel_eq_ok h).mpr ⟨x, hx, hfit, hnan, rfl⟩⟩
  · intro hch r x hr hx
    obtain ⟨x', hx', -, -, rfl⟩ := (parseToNchannel_eq_ok h).mp hr
    obtain rfl : x = x' := by
      rw [hx] at hx'
      cases hx'
      rfl
    have hpos : 0 < x.t := by
      have hverify := (Uniform.fromTopicData_eq_ok.mp hx).2.2.2.2
      rw [Uniform.verify, Bool.and_eq_true] at hverify
      exact of_decide_eq_true hverify.1
    exact Uniform.toNchannel_eq interval hch fun ht => by simp [ht] at hpos

/-- **The decoders of the server and of the device agree** on every message with at most `max` samples,
where the Q15 parser keeps only messages without NaNs; and none of them indexes out of bounds. -/
theorem decoders_agree (interval : UInt32 → Int64) (nCh max : ℕ) (bytes : List UInt8) :
    (lengthField 2 (bytes.drop 12) ≤ max →
      Agree interval (parseQ15xlToNchannelAllowNan nCh interval)
        (fun _ : Uniform 2 nCh max => True) bytes) ∧
    (lengthField 1 (bytes.drop 12) ≤ max →
      Agree interval (parseQ15ToNchannel nCh interval)
        (fun x : Uniform 1 nCh max => x.NoNan) bytes) ∧
    parseQ15xlToNchannelAllowNan nCh interval bytes ≠ .error .panic ∧
    parseQ15ToNchannel nCh interval bytes ≠ .error .panic ∧
    Uniform.fromTopicData 2 nCh max bytes ≠ .error .panic ∧
    Uniform.fromTopicData 1 nCh max bytes ≠ .error .panic := by
  refine ⟨fun h => ?_, fun h => ?_, parseToNchannel_no_panic interval true bytes,
    parseToNchannel_no_panic interval false bytes, fromTopicData_no_panic bytes,
    fromTopicData_no_panic bytes⟩
  · have hagree : Agree interval (parseToNchannel 2 nCh interval true)
        (fun x : Uniform 2 nCh max => true = true ∨ x.NoNan) bytes := agree interval true h
    simp only [true_or] at hagree
    exact hagree
  · have hagree : Agree interval (parseToNchannel 1 nCh interval false)
        (fun x : Uniform 1 nCh max => false = true ∨ x.NoNan) bytes := agree interval false h
    simp only [Bool.false_eq_true, false_or] at hagree
    exact hagree

/-- A message of two samples on each of two channels -/
def twoChannels (p : ℕ) (hp : 2 < 256 ^ p) : Uniform p 2 3 := ⟨1000000, 0x447A0000, .twoChannels p hp⟩

theorem decoders_agree_twoChannels :
    (∃ r, parseQ15xlToNchannelAllowNan 2 (fun _ => 1000) (twoChannels 2 (by decide)).encoding = .ok r) ∧
      ∃ r, parseQ15ToNchannel 2 (fun _ => 1000) (twoChannels 1 (by decide)).encoding = .ok r := by
  obtain ⟨hxl, -⟩ := decoders_agree (fun _ => 1000) 2 3 (twoChannels 2 (by decide)).encoding
  obtain ⟨-, hq15, -⟩ := decoders_agree (fun _ => 1000) 2 3 (twoChannels 1 (by decide)).encoding
  refine ⟨(hxl (by decide)).accept.mpr ⟨twoChannels 2 (by decide), ?_, by decide, trivial⟩,
    (hq15 (by decide)).accept.mpr ⟨twoChannels 1 (by decide), ?_, by decide, by decide⟩⟩
  · refine (Uniform.fromTopicData_encoding (by decide)).mpr ⟨fun h => absurd h (by decide), by decide⟩
  · refine (Uniform.fromTopicData_encoding (by decide)).mpr ⟨fun h => absurd h (by decide), by decide⟩

/-- A message whose only sample is a NaN -/
def nanMessage : Uniform 1 1 1 :=
  { Uniform.oneSample with data := { Uniform.oneSample.data with ch := fun _ => ⟨0, fun _ => -32768⟩ } }

/-- A header alone, read as a message without channels -/
def noChannels : Uniform 2 0 1 :=
  { Uniform.noSamples with data := { Uniform.noSamples.data with ch := nofun } }

/-- The Q15 parser rejects a NaN that the device accepts; and without channels the device counts one
sample where the server counts none. -/
theorem decoders_agree_fails :
    (Uniform.fromTopicData 1 1 1 nanMessage.encoding = .ok nanMessage ∧
      nanMessage.TimestampsFit (fun _ => 1000) ∧
      parseQ15ToNchannel 1 (fun _ => 1000) nanMessage.encoding = .error (.err .invalid)) ∧
    ∃ r r', parseQ15xlToNchannelAllowNan 0 (fun _ => 1000) noChannels.encoding = .ok r ∧
      Uniform.fromTopicData 2 0 1 noChannels.encoding = .ok noChannels ∧
      (noChannels.toNchannel (fun _ => 1000) : Attempt ParseError _) = .ok r' ∧
      r.t.length = 0 ∧ r'.t.length = 1 := by
  have haccept : Uniform.fromTopicData 2 0 1 noChannels.encoding = .ok noChannels :=
    (Uniform.fromTopicData_encoding (by decide)).mpr ⟨fun _ => ⟨rfl, nofun⟩, nofun⟩
  refine ⟨⟨?_, ?_, ?_⟩, noChannels.expanded fun _ => 1000,
    .ofUniformSamples (fun _ => 1000) noChannels.samples, ?_, haccept, ?_, rfl, ?_⟩
  · refine (Uniform.fromTopicData_encoding (by decide)).mpr ⟨fun h => ?_, fun c i hi => ?_⟩
    · exact absurd h (by decide)
    · have hi' : 1 ≤ (i : ℕ) := hi
      omega
  · intro i hi
    obtain rfl : i = 0 := Nat.lt_one_iff.mp hi
    decide
  · rw [parseQ15ToNchannel, parseToNchannel_eq]
    decide +kernel
  · exact (parseToNchannel_eq_ok (by decide)).mpr
      ⟨noChannels, haccept, fun i hi => absurd hi (Nat.not_lt_zero i), .inl rfl, rfl⟩
  · unfold Uniform.toNchannel
    rw [Uniform.asUniform_eq]
    rfl
  · decide

end SensorLink.Samples
