import Mathlib.Data.List.Chain
import SensorLink.Dispatch.Buffer

/-!
# No sample is lost in the buffer

The samples of a buffer are those of a group of pushes that were joined: `BufferHolds`. A push joins the
group, or the group becomes a packet and the push starts the next one. In between, each later push of a
group starts at most two sample intervals after the last timestamp of the push before it. The timestamp
zero marks an empty set, so that pushes must not start there, and the sums of timestamps must not
overflow.
-/

namespace SensorLink.Dispatch

open SensorLink.Lib SensorLink.Samples

variable {α P : Type} {nAxes max : ℕ}

/-! ### Groups of pushes -/

/-- A timestamp whose sums with others do not overflow -/
def Moderate (t : Int64) : Prop := -2 ^ 62 ≤ t.toInt ∧ t.toInt < 2 ^ 62

lemma moderate_zero : Moderate 0 := ⟨by decide, by decide⟩

/-- Data that can be buffered: it does not start at zero, its last timestamp is not more than `tDeltaUs`
before its first one, and the timestamps do not overflow. -/
structure Plausible (tDeltaUs : Int64) (data : SampleData α nAxes max) : Prop where
  t_ne : data.t ≠ 0
  ordered : data.t.toInt ≤ data.tLast.toInt + tDeltaUs.toInt
  t_moderate : Moderate data.t
  tLast_moderate : Moderate data.tLast

/-- The samples that a set reports for axis `i` -/
def reported (u : UniformSamples α nAxes max) (i : Fin nAxes) : List α := (u.ch i).toList.take u.len

/-- The samples of axis `i` of the pushes, in order -/
def samplesOf (group : List (SampleData α nAxes max)) (i : Fin nAxes) : List α :=
  group.flatMap fun data => data.slice i

/-- The pushes were joined: each starts at most `tDeltaUs` after the end of the one before it. -/
def Joined (tDeltaUs : Int64) (group : List (SampleData α nAxes max)) : Prop :=
  group.IsChain fun a b => b.t.toInt ≤ a.tLast.toInt + tDeltaUs.toInt

/-- A packet holds the samples of the group, from the timestamp of its first sample on. -/
structure PacketHolds (tDeltaUs : Int64) (u : UniformSamples α nAxes max)
    (group : List (SampleData α nAxes max)) : Prop where
  samples : ∀ i, reported u i = samplesOf group i
  stamped : ∀ first rest, group = first :: rest → first.len ≠ 0 ∧ u.t = first.t
  joined : Joined tDeltaUs group

/-- The number of samples in the group -/
def total (group : List (SampleData α nAxes max)) : ℕ := (group.map SampleData.len).sum

@[simp]
lemma length_slice (data : SampleData α nAxes max) (i : Fin nAxes) :
    (data.slice i).length = data.len := by
  simp [SampleData.slice, data.len_le]

lemma length_samplesOf (group : List (SampleData α nAxes max)) (i : Fin nAxes) :
    (samplesOf group i).length = total group := by
  induction group with
  | nil => rfl
  | cons data group ih =>
    simp only [samplesOf, total, List.flatMap_cons, List.length_append, length_slice,
      List.map_cons, List.sum_cons] at ih ⊢
    rw [ih]

@[simp]
lemma samplesOf_append (group group' : List (SampleData α nAxes max)) (i : Fin nAxes) :
    samplesOf (group ++ group') i = samplesOf group i ++ samplesOf group' i :=
  List.flatMap_append

@[simp]
lemma samplesOf_nil (i : Fin nAxes) : samplesOf ([] : List (SampleData α nAxes max)) i = [] := rfl

@[simp]
lemma samplesOf_singleton (data : SampleData α nAxes max) (i : Fin nAxes) :
    samplesOf [data] i = data.slice i := by
  simp [samplesOf]

lemma checkedI64_eq {v : ℤ} (h : -2 ^ 63 ≤ v) (h' : v < 2 ^ 63) :
    ∃ r, checkedI64 v = some r ∧ r.toInt = v :=
  ⟨Int64.ofInt v, if_pos ⟨h, h'⟩, Int64.toInt_ofInt_of_le h h'⟩

/-- The buffer holds the samples of the group. -/
structure BufferHolds (b : SerializingBuffer α nAxes max)
    (group : List (SampleData α nAxes max)) : Prop where
  samples : ∀ i, (b.sampleBuffer.ch i).toList = samplesOf group i
  stamped : ∀ first rest, group = first :: rest →
    first.len ≠ 0 ∧ first.t ≠ 0 ∧ b.sampleBuffer.t = first.t
  last : ∀ init final, group = init ++ [final] → b.lastTimestamp = final.tLast
  joined : Joined b.tDeltaUs group
  t_moderate : Moderate b.sampleBuffer.t
  last_moderate : Moderate b.lastTimestamp
  tDelta_moderate : Moderate b.tDeltaUs

namespace BufferHolds

variable {b : SerializingBuffer α nAxes max} {group : List (SampleData α nAxes max)}

lemma len_eq (h : BufferHolds b group) (hAxes : 0 < nAxes) : b.len = total group := by
  have hlen : ∀ i, (b.sampleBuffer.ch i).len = total group := by
    intro i
    rw [HVec.len, h.samples, length_samplesOf]
  cases group with
  | nil =>
    unfold SerializingBuffer.len
    by_cases ht : b.sampleBuffer.t = 0
    · simp [UniformSamples.len, ht, total]
    · exact UniformSamples.len_eq hAxes ht hlen
  | cons first rest =>
    obtain ⟨-, hne, ht⟩ := h.stamped first rest rfl
    exact UniformSamples.len_eq hAxes (ht ▸ hne) hlen

lemma isEmpty_iff (h : BufferHolds b group) (hAxes : 0 < nAxes) : b.isEmpty = true ↔ group = [] := by
  rw [SerializingBuffer.isEmpty, h.len_eq hAxes, decide_eq_true_iff]
  cases group with
  | nil => simp [total]
  | cons first rest =>
    have := (h.stamped first rest rfl).1
    simp [total]
    omega

lemma packet (h : BufferHolds b group) (hAxes : 0 < nAxes) :
    PacketHolds b.tDeltaUs b.sampleBuffer group := by
  refine ⟨fun i => ?_, fun first rest hgroup => ?_, h.joined⟩
  · have hlen : b.sampleBuffer.len = total group := h.len_eq hAxes
    rw [reported, hlen, h.samples, ← length_samplesOf group i, List.take_length]
  · obtain ⟨hlen, -, ht⟩ := h.stamped first rest hgroup
    exact ⟨hlen, ht⟩

lemma clear (h : BufferHolds b group) : BufferHolds b.clear [] where
  samples _ := rfl
  stamped := nofun
  last init final hnil := by simp at hnil
  joined := List.isChain_nil
  t_moderate := moderate_zero
  last_moderate := h.last_moderate
  tDelta_moderate := h.tDelta_moderate

lemma setTimeout (h : BufferHolds b group) (timeoutUs : Int64) :
    BufferHolds (b.setTimeout timeoutUs) group :=
  ⟨h.samples, h.stamped, h.last, h.joined, h.t_moderate, h.last_moderate, h.tDelta_moderate⟩

end BufferHolds

/-! ### One push -/

lemma extendAxes_eq (data : SampleData α nAxes max) {axes : List (Fin nAxes)}
    {ch : Fin nAxes → HVec α max} (hnodup : axes.Nodup)
    (hfit : ∀ i ∈ axes, (ch i).toList.length + data.len ≤ max) :
    ∃ ch', SerializingBuffer.extendAxes data axes ch = (true, ch') ∧
      ∀ i, (ch' i).toList = if i ∈ axes then (ch i).toList ++ data.slice i else (ch i).toList := by
  induction axes generalizing ch with
  | nil => exact ⟨ch, rfl, by simp⟩
  | cons i axes ih =>
    obtain ⟨hi, hnodup⟩ := List.nodup_cons.mp hnodup
    have hlen : ((ch i).toList ++ data.slice i).length ≤ max := by
      rw [List.length_append, length_slice]
      exact hfit i (by simp)
    have hextend : (ch i).extendFromSlice (data.slice i) =
        some ⟨(ch i).toList ++ data.slice i, hlen⟩ := HVec.extendFromSlice_eq_some.mpr rfl
    have hne : ∀ j ∈ axes, j ≠ i := fun j hj hji => hi (hji ▸ hj)
    let chI : Fin nAxes → HVec α max := fun j =>
      if j = i then ⟨(ch i).toList ++ data.slice i, hlen⟩ else ch j
    have hfitI : ∀ j ∈ axes, (chI j).toList.length + data.len ≤ max := by
      intro j hj
      simp only [chI, if_neg (hne j hj)]
      exact hfit j (by simp [hj])
    obtain ⟨ch', hch', hlist⟩ := @ih chI hnodup hfitI
    refine ⟨ch', by rw [SerializingBuffer.extendAxes, hextend]; exact hch', fun j => ?_⟩
    rw [hlist j]
    by_cases hj : j = i
    · subst hj
      simp [chI, hi]
    · simp [chI, hj]

/-- The group after the data joined it; leading pushes without samples do not count. -/
def join (group : List (SampleData α nAxes max)) (data : SampleData α nAxes max) :
    List (SampleData α nAxes max) :=
  if group = [] ∧ data.len = 0 then [] else group ++ [data]

lemma samplesOf_join (group : List (SampleData α nAxes max)) (data : SampleData α nAxes max)
    (i : Fin nAxes) : samplesOf (join group data) i = samplesOf group i ++ data.slice i := by
  unfold join
  split
  next h =>
    have hnil : data.slice i = [] := List.length_eq_zero_iff.mp (by simp [h.2])
    simp [h.1, hnil]
  · simp [samplesOf]

lemma join_sublist (group : List (SampleData α nAxes max)) (data : SampleData α nAxes max) :
    (join group data).Sublist (group ++ [data]) := by
  unfold join
  split
  · exact List.nil_sublist _
  · exact List.Sublist.refl _

section Push

variable {b : SerializingBuffer α nAxes max} {group : List (SampleData α nAxes max)}
  {data : SampleData α nAxes max}

lemma BufferHolds.push_full (h : BufferHolds b group) (hAxes : 0 < nAxes)
    (hfull : max < total group + data.len) : b.push data = some (.notEnoughSpace, b) := by
  unfold SerializingBuffer.push
  rw [h.len_eq hAxes, if_pos hfull]

lemma BufferHolds.push_gap (h : BufferHolds b group) (hAxes : 0 < nAxes)
    (hspace : total group + data.len ≤ max) (hne : group ≠ [])
    (hgap : b.lastTimestamp.toInt + b.tDeltaUs.toInt < data.t.toInt) :
    b.push data = some (.notContiguous, b) := by
  have hstamp : b.stamp data = b := by
    unfold SerializingBuffer.stamp
    rw [if_neg (by rw [h.isEmpty_iff hAxes]; exact hne)]
  obtain ⟨hlo, hhi⟩ := h.last_moderate
  obtain ⟨hlo', hhi'⟩ := h.tDelta_moderate
  obtain ⟨limit, hlimit, hvalue⟩ := checkedI64_eq
    (show -2 ^ 63 ≤ b.lastTimestamp.toInt + b.tDeltaUs.toInt by omega) (by omega)
  unfold SerializingBuffer.push
  rw [h.len_eq hAxes, if_neg (by omega)]
  simp only [hstamp, hlimit, Option.bind_eq_bind, Option.bind_some]
  rw [if_pos (by omega)]

/-- The buffer after the data was inserted -/
lemma BufferHolds.inserted (h : BufferHolds b group) (hp : Plausible b.tDeltaUs data)
    (hjoin : group = [] ∨ data.t.toInt ≤ b.lastTimestamp.toInt + b.tDeltaUs.toInt)
    {b' : SerializingBuffer α nAxes max} (hdelta : b'.tDeltaUs = b.tDeltaUs)
    (hch : ∀ i, (b'.sampleBuffer.ch i).toList = (b.sampleBuffer.ch i).toList ++ data.slice i)
    (hlast : b'.lastTimestamp = data.tLast)
    (ht : b'.sampleBuffer.t = if group = [] then data.t else b.sampleBuffer.t) :
    BufferHolds b' (join group data) where
  samples i := by rw [hch, h.samples, samplesOf_join]
  stamped first rest hfirst := by
    unfold join at hfirst
    split at hfirst
    · cases hfirst
    next hne =>
      cases group with
      | nil =>
        obtain ⟨rfl, -⟩ := List.cons.inj hfirst
        exact ⟨fun hlen => hne ⟨rfl, hlen⟩, hp.t_ne, by simpa using ht⟩
      | cons first' rest' =>
        obtain ⟨rfl, -⟩ := List.cons.inj hfirst
        obtain ⟨hlen, hne', ht'⟩ := h.stamped _ _ rfl
        exact ⟨hlen, hne', by simpa [ht'] using ht⟩
  last init final hfinal := by
    unfold join at hfinal
    split at hfinal
    · simp at hfinal
    · obtain ⟨-, hdata⟩ := List.append_inj' hfinal rfl
      cases hdata
      exact hlast
  joined := by
    rw [hdelta]
    unfold join
    split
    · exact List.isChain_nil
    · refine List.isChain_append.mpr ⟨h.joined, List.isChain_singleton _, ?_⟩
      intro x hx y hy
      obtain ⟨init, hinit⟩ := List.getLast?_eq_some_iff.mp hx
      obtain rfl : data = y := by simpa using hy
      rw [← h.last init x hinit]
      exact hjoin.resolve_left (by rw [hinit]; simp)
  t_moderate := by
    rw [ht]
    split
    · exact hp.t_moderate
    · exact h.t_moderate
  last_moderate := hlast ▸ hp.tLast_moderate
  tDelta_moderate := hdelta ▸ h.tDelta_moderate

lemma BufferHolds.push_joins (h : BufferHolds b group) (hAxes : 0 < nAxes)
    (hp : Plausible b.tDeltaUs data) (hspace : total group + data.len ≤ max)
    (hjoin : group = [] ∨ data.t.toInt ≤ b.lastTimestamp.toInt + b.tDeltaUs.toInt) :
    ∃ status b', b.push data = some (status, b') ∧
      (status = .ok ∨ status = .notEnoughSpaceForNext ∨ status = .timeout) ∧
      BufferHolds b' (join group data) ∧ b'.tDeltaUs = b.tDeltaUs ∧
      (status = .ok → total (join group data) + data.len ≤ max) := by
  -- the timestamps, also those of an empty buffer
  have hstamp : (b.stamp data).sampleBuffer.ch = b.sampleBuffer.ch ∧
      (b.stamp data).sampleBuffer.t = (if group = [] then data.t else b.sampleBuffer.t) ∧
      (b.stamp data).lastTimestamp = (if group = [] then data.tLast else b.lastTimestamp) ∧
      (b.stamp data).tDeltaUs = b.tDeltaUs := by
    unfold SerializingBuffer.stamp
    by_cases hg : group = []
    · rw [if_pos ((h.isEmpty_iff hAxes).mpr hg), if_pos hg, if_pos hg]
      exact ⟨rfl, rfl, rfl, rfl⟩
    · rw [if_neg (mt (h.isEmpty_iff hAxes).mp hg), if_neg hg, if_neg hg]
      exact ⟨rfl, rfl, rfl, rfl⟩
  obtain ⟨hch, ht, hlast, hdelta⟩ := hstamp
  have htm : Moderate (b.stamp data).sampleBuffer.t := by
    rw [ht]
    split
    · exact hp.t_moderate
    · exact h.t_moderate
  have hlastm : Moderate (b.stamp data).lastTimestamp := by
    rw [hlast]
    split
    · exact hp.tLast_moderate
    · exact h.last_moderate
  have hcontiguous : data.t.toInt ≤ (b.stamp data).lastTimestamp.toInt + b.tDeltaUs.toInt := by
    rw [hlast]
    split
    · exact hp.ordered
    next hg => exact hjoin.resolve_left hg
  obtain ⟨hlo, hhi⟩ := hlastm
  obtain ⟨hlo', hhi'⟩ := h.tDelta_moderate
  obtain ⟨limit, hlimit, hvalue⟩ := checkedI64_eq
    (show -2 ^ 63 ≤ (b.stamp data).lastTimestamp.toInt + b.tDeltaUs.toInt by omega) (by omega)
  rw [← hdelta] at hlimit
  obtain ⟨htlo, hthi⟩ := htm
  obtain ⟨hplo, hphi⟩ := hp.tLast_moderate
  obtain ⟨dt, hdt, -⟩ := checkedI64_eq
    (show -2 ^ 63 ≤ data.tLast.toInt - (b.stamp data).sampleBuffer.t.toInt by omega) (by omega)
  have hfit : ∀ i ∈ List.finRange nAxes, (b.sampleBuffer.ch i).toList.length + data.len ≤ max := by
    intro i _
    rw [h.samples, length_samplesOf]
    exact hspace
  obtain ⟨ch', hextend, hlist⟩ := extendAxes_eq data (List.nodup_finRange nAxes) hfit
  let b' : SerializingBuffer α nAxes max :=
    { b.stamp data with
      sampleBuffer := { (b.stamp data).sampleBuffer with ch := ch' }
      lastTimestamp := data.tLast }
  have hb' : BufferHolds b' (join group data) :=
    h.inserted hp hjoin hdelta (fun i => by simpa using hlist i) rfl ht
  have hpush : b.push data = if (b.stamp data).timeoutUs.toInt < dt.toInt then some (.timeout, b')
      else if max < b'.len + data.len then some (.notEnoughSpaceForNext, b')
      else some (.ok, b') := by
    unfold SerializingBuffer.push
    rw [h.len_eq hAxes, if_neg (by omega)]
    simp only [hlimit, Option.bind_eq_bind, Option.bind_some]
    rw [if_neg (by omega)]
    simp only [hch, hextend, Bool.not_true, Bool.false_eq_true, if_false, hdt, Option.bind_some]
    rfl
  rw [hpush]
  split
  · exact ⟨_, _, rfl, .inr (.inr rfl), hb', hdelta, nofun⟩
  split
  · exact ⟨_, _, rfl, .inr (.inl rfl), hb', hdelta, nofun⟩
  next hnext =>
    rw [hb'.len_eq hAxes] at hnext
    exact ⟨_, _, rfl, .inl rfl, hb', hdelta, fun _ => by omega⟩

end Push

/-! ### `push_data` -/

/-- What a call leaves: packets, each of a group, and a buffer with the last group. Together these are
the samples that were in the buffer and the new ones. -/
structure Regrouped (serialize : UniformSamples α nAxes max → P) (tDeltaUs : Int64)
    (pushes : List (SampleData α nAxes max)) (emitted : List P)
    (b : SerializingBuffer α nAxes max) : Prop where
  tDelta : b.tDeltaUs = tDeltaUs
  groups : ∃ (packets : List (UniformSamples α nAxes max × List (SampleData α nAxes max)))
    (group : List (SampleData α nAxes max)),
    emitted = packets.map (fun p => serialize p.1) ∧
    (∀ p ∈ packets, PacketHolds tDeltaUs p.1 p.2) ∧ BufferHolds b group ∧
    (∀ i, packets.flatMap (fun p => samplesOf p.2 i) ++ samplesOf group i = samplesOf pushes i) ∧
    (packets.flatMap Prod.snd ++ group).Sublist pushes

section PushData

variable {serialize : UniformSamples α nAxes max → P} {b b' : SerializingBuffer α nAxes max}
  {group : List (SampleData α nAxes max)} {data : SampleData α nAxes max} {status : BufferStatus}

/-- The data was not inserted: the buffer is serialized, and the loop goes on. -/
lemma pushDataLoop_retry (hpush : b.push data = some (status, b))
    (hstatus : status = .notContiguous ∨ status = .notEnoughSpace) (fuel : ℕ) :
    pushDataLoop (fun u => some (serialize u)) data (fuel + 1) none 0 b =
      pushDataLoop (fun u => some (serialize u)) data fuel (some (serialize b.sampleBuffer)) 0
        b.clear := by
  rcases hstatus with rfl | rfl <;> simp [pushDataLoop, hpush]

/-- The data was inserted: the buffer is serialized, or kept. -/
lemma pushDataLoop_inserted (hpush : b.push data = some (status, b'))
    (hstatus : status = .ok ∨ status = .notEnoughSpaceForNext ∨ status = .timeout) (fuel : ℕ)
    (packet : Option P) :
    pushDataLoop (fun u => some (serialize u)) data (fuel + 1) packet 0 b =
        some (.serialized (serialize b'.sampleBuffer), b'.clear) ∧
        (packet = none ∨ status = .ok ∧ b'.isFull = true) ∨
      pushDataLoop (fun u => some (serialize u)) data (fuel + 1) packet 0 b =
        some (.ofPacket packet, b') := by
  rcases hstatus with rfl | rfl | rfl
  · cases hfull : b'.isFull with
    | true =>
      left
      simp [pushDataLoop, hpush, hfull]
    | false =>
      right
      simp [pushDataLoop, hpush, hfull]
  · cases packet with
    | none =>
      left
      simp [pushDataLoop, hpush]
    | some packet =>
      right
      simp [pushDataLoop, hpush]
  · cases packet with
    | none =>
      left
      simp [pushDataLoop, hpush]
    | some packet =>
      right
      simp [pushDataLoop, hpush]

lemma BufferHolds.pushData (h : BufferHolds b group) (hAxes : 0 < nAxes)
    (hp : Plausible b.tDeltaUs data) :
    ∃ result b', pushData (fun u => some (serialize u)) 2 b data = some (result, b') ∧
      Regrouped serialize b.tDeltaUs (group ++ [data]) result.packets b' := by
  have hlen : data.len ≤ max := data.len_le.trans data.capacity_le
  unfold Dispatch.pushData
  by_cases hjoin : total group + data.len ≤ max ∧
      (group = [] ∨ data.t.toInt ≤ b.lastTimestamp.toInt + b.tDeltaUs.toInt)
  · obtain ⟨status, b', hpush, hstatus, hholds, hdelta, -⟩ :=
      h.push_joins hAxes hp hjoin.1 hjoin.2
    obtain ⟨hloop, -⟩ | hloop := pushDataLoop_inserted (P := P) hpush hstatus 1 none
    · refine ⟨_, _, hloop, hdelta, [(b'.sampleBuffer, join group data)], [], rfl, ?_,
        hholds.clear, ?_, ?_⟩
      · simpa [hdelta] using hholds.packet hAxes
      · simp [samplesOf_join]
      · simpa using join_sublist group data
    · refine ⟨_, _, hloop, hdelta, [], join group data, rfl, by simp, hholds, ?_, ?_⟩
      · simp [samplesOf_join]
      · simpa using join_sublist group data
  · obtain ⟨status, hpush, hstatus⟩ : ∃ status, b.push data = some (status, b) ∧
        (status = .notContiguous ∨ status = .notEnoughSpace) := by
      by_cases hfull : max < total group + data.len
      · exact ⟨_, h.push_full hAxes hfull, .inr rfl⟩
      · push Not at hjoin
        obtain ⟨hne, hgap⟩ := hjoin (by omega)
        exact ⟨_, h.push_gap hAxes (by omega) hne hgap, .inl rfl⟩
    rw [pushDataLoop_retry hpush hstatus]
    have hclear : BufferHolds b.clear [] := h.clear
    have hspace : total ([] : List (SampleData α nAxes max)) + data.len ≤ max := by simpa [total]
    obtain ⟨status', b', hpush', hstatus', hholds, hdelta, hok⟩ :=
      hclear.push_joins hAxes hp hspace (.inl rfl)
    obtain ⟨hloop, hfull⟩ | hloop :=
      pushDataLoop_inserted hpush' hstatus' 0 (some (serialize b.sampleBuffer))
    · -- only a buffer without capacity is full here
      obtain ⟨hstatusOk, hlenMax⟩ := hfull.resolve_left nofun
      rw [SerializingBuffer.isFull, hholds.len_eq hAxes, decide_eq_true_iff] at hlenMax
      have hzero : data.len = 0 := by
        have hroom := hok hstatusOk
        omega
      have hjoinNil : join [] data = [] := if_pos ⟨rfl, hzero⟩
      have hmax : max = 0 := by
        rw [hjoinNil] at hlenMax
        exact hlenMax.symm
      have hgroup : group = [] := (h.isEmpty_iff hAxes).mp (by
        rw [SerializingBuffer.isEmpty, decide_eq_true_iff, h.len_eq hAxes,
          ← length_samplesOf group ⟨0, hAxes⟩, ← h.samples]
        have := (b.sampleBuffer.ch ⟨0, hAxes⟩).length_le
        omega)
      have hslice : ∀ i, data.slice i = [] := fun i =>
        List.length_eq_zero_iff.mp (by simp [hzero])
      rw [hjoinNil] at hholds
      refine ⟨_, _, hloop, hdelta, [(b'.sampleBuffer, [])], [], rfl, ?_, hholds.clear, ?_, ?_⟩
      · intro packet hpacket
        obtain rfl := List.mem_singleton.mp hpacket
        exact hdelta ▸ hholds.packet hAxes
      · simp [hgroup, hslice]
      · simp
    · refine ⟨_, _, hloop, hdelta, [(b.sampleBuffer, group)], join [] data, rfl, ?_, hholds, ?_, ?_⟩
      · simpa using h.packet hAxes
      · simp [samplesOf_join]
      · simpa using join_sublist [] data

/-- Data that starts more than `tDeltaUs` behind its own end never fits: an empty buffer refuses it, is
serialized and refuses it again. -/
lemma pushDataLoop_stuck (hb : b.sampleBuffer.t = 0) (hdelta : Moderate b.tDeltaUs)
    (hlast : Moderate data.tLast) (hgap : data.tLast.toInt + b.tDeltaUs.toInt < data.t.toInt)
    (fuel : ℕ) (packet : Option P) :
    pushDataLoop (fun u => some (serialize u)) data fuel packet 0 b = none := by
  induction fuel generalizing b packet with
  | zero => rfl
  | succ fuel ih =>
    have hlen : b.len = 0 := if_pos hb
    have hstamp : b.stamp data = { b with
        sampleBuffer := { b.sampleBuffer with t := data.t }
        lastTimestamp := data.tLast } := if_pos (decide_eq_true hlen)
    have hdata : data.len ≤ max := data.len_le.trans data.capacity_le
    obtain ⟨hlo, hhi⟩ := hlast
    obtain ⟨hlo', hhi'⟩ := hdelta
    obtain ⟨limit, hlimit, hvalue⟩ := checkedI64_eq
      (show -2 ^ 63 ≤ data.tLast.toInt + b.tDeltaUs.toInt by omega) (by omega)
    have hpush : b.push data = some (.notContiguous, b.stamp data) := by
      unfold SerializingBuffer.push
      rw [hlen, if_neg (by omega)]
      simp only [hstamp, hlimit, Option.bind_eq_bind, Option.bind_some]
      rw [if_pos (by omega)]
    have hnext := @ih (b.stamp data).clear rfl (by rw [hstamp]; exact ⟨hlo', hhi'⟩)
      (by rw [hstamp]; exact hgap)
    simp [pushDataLoop, hpush, hnext]

end PushData

/-! ### Runs -/

section Runs

variable {serialize : UniformSamples α nAxes max → P} {tDeltaUs : Int64}

/-- One more call after others. -/
lemma Regrouped.trans {pushes group group' : List (SampleData α nAxes max)} {emitted emitted' : List P}
    {b : SerializingBuffer α nAxes max}
    {packets : List (UniformSamples α nAxes max × List (SampleData α nAxes max))}
    (hemitted : emitted = packets.map fun p => serialize p.1)
    (hpackets : ∀ p ∈ packets, PacketHolds tDeltaUs p.1 p.2)
    (hsamples : ∀ i, packets.flatMap (fun p => samplesOf p.2 i) ++ samplesOf group i =
      samplesOf pushes i)
    (hsub : (packets.flatMap Prod.snd ++ group).Sublist pushes)
    (h : Regrouped serialize tDeltaUs (group ++ group') emitted' b) :
    Regrouped serialize tDeltaUs (pushes ++ group') (emitted ++ emitted') b := by
  obtain ⟨hdelta, packets', group'', hemitted', hpackets', hholds, hsamples', hsub'⟩ := h
  refine ⟨hdelta, packets ++ packets', group'', ?_, ?_, hholds, fun i => ?_, ?_⟩
  · rw [hemitted, hemitted', List.map_append]
  · intro p hp
    rcases List.mem_append.mp hp with hp | hp
    · exact hpackets p hp
    · exact hpackets' p hp
  · rw [List.flatMap_append, List.append_assoc, hsamples', samplesOf_append, samplesOf_append,
      ← List.append_assoc, hsamples]
  · have hleft := (List.Sublist.refl (packets.flatMap Prod.snd)).append hsub'
    rw [← List.append_assoc, ← List.append_assoc] at hleft
    rw [List.flatMap_append]
    exact hleft.trans (hsub.append (List.Sublist.refl group'))

lemma Regrouped.pushData {pushes : List (SampleData α nAxes max)} {emitted : List P}
    {b : SerializingBuffer α nAxes max} (h : Regrouped serialize tDeltaUs pushes emitted b)
    (hAxes : 0 < nAxes) {data : SampleData α nAxes max} (hp : Plausible tDeltaUs data) :
    ∃ result b', pushData (fun u => some (serialize u)) 2 b data = some (result, b') ∧
      Regrouped serialize tDeltaUs (pushes ++ [data]) (emitted ++ result.packets) b' := by
  obtain ⟨rfl, packets, group, hemitted, hpackets, hholds, hsamples, hsub⟩ := h
  have hcall : ∃ result b', Dispatch.pushData (fun u => some (serialize u)) 2 b data =
      some (result, b') ∧ Regrouped serialize b.tDeltaUs (group ++ [data]) result.packets b' :=
    hholds.pushData hAxes hp
  obtain ⟨result, b', hpush, hnext⟩ := hcall
  exact ⟨result, b', hpush, .trans hemitted hpackets hsamples hsub hnext⟩

lemma Regrouped.forceSerialize {pushes : List (SampleData α nAxes max)} {emitted : List P}
    {b : SerializingBuffer α nAxes max} (h : Regrouped serialize tDeltaUs pushes emitted b)
    (hAxes : 0 < nAxes) :
    Regrouped serialize tDeltaUs pushes
      (emitted ++ (forceSerialize (fun u => some (serialize u)) b).1.toList)
      (forceSerialize (fun u => some (serialize u)) b).2 := by
  unfold Dispatch.forceSerialize
  split
  · obtain ⟨rfl, packets, group, hemitted, hpackets, hholds, hsamples, hsub⟩ := h
    have hpacket : Regrouped serialize b.tDeltaUs (group ++ []) [serialize b.sampleBuffer]
        b.clear := by
      refine ⟨rfl, [(b.sampleBuffer, group)], [], rfl, ?_, hholds.clear, by simp, by simp⟩
      simpa using hholds.packet hAxes
    simpa using Regrouped.trans hemitted hpackets hsamples hsub hpacket
  · simpa using h

/-- The calls whose data can be buffered -/
def Op.Plausible (tDeltaUs : Int64) : Op α nAxes max → Prop
  | .pushData data => Dispatch.Plausible tDeltaUs data
  | .forceSerialize | .setTimeout _ => True

/-- The packets and the buffer report all samples that were pushed, in order. Each has the timestamp of
the first push of a group of pushes, and the pushes of a group were joined. -/
def NothingLost (serialize : UniformSamples α nAxes max → P) (tDeltaUs : Int64)
    (m : Manager α P nAxes max) : Prop :=
  ∃ (packets : List (UniformSamples α nAxes max × List (SampleData α nAxes max)))
    (group : List (SampleData α nAxes max)),
    m.emitted = packets.map (fun p => serialize p.1) ∧
    (∀ p ∈ packets, PacketHolds tDeltaUs p.1 p.2) ∧
    PacketHolds tDeltaUs m.buffer.sampleBuffer group ∧
    (∀ i, packets.flatMap (fun p => reported p.1 i) ++ reported m.buffer.sampleBuffer i =
      samplesOf m.pushed i) ∧
    (packets.flatMap Prod.snd ++ group).Sublist m.pushed

lemma Regrouped.nothingLost {m : Manager α P nAxes max} (hAxes : 0 < nAxes)
    (h : Regrouped serialize tDeltaUs m.pushed m.emitted m.buffer) :
    NothingLost serialize tDeltaUs m := by
  obtain ⟨rfl, packets, group, hemitted, hpackets, hholds, hsamples, hsub⟩ := h
  have hbuffer := hholds.packet hAxes
  refine ⟨packets, group, hemitted, hpackets, hbuffer, fun i => ?_, hsub⟩
  rw [hbuffer.samples, ← hsamples,
    List.flatMap_congr fun p hp => (hpackets p hp).samples i]

/-- **Buffering loses and duplicates nothing**: every call of a run returns, and after each the packets
and the buffer report the pushed samples in order. -/
theorem nothing_lost (hAxes : 0 < nAxes) (serialize : UniformSamples α nAxes max → P)
    {interval : UInt32 → Int64} {fs : UInt32} {timeoutUs : Int64}
    {b : SerializingBuffer α nAxes max}
    (hb : SerializingBuffer.empty interval fs timeoutUs = some b) (hdelta : Moderate b.tDeltaUs)
    {s : Option (Manager α P nAxes max)}
    (h : Reach (Manager.exec serialize) (fun _ op => op.Plausible b.tDeltaUs)
      (some ⟨b, [], []⟩) s) :
    ∃ m, s = some m ∧ NothingLost serialize b.tDeltaUs m := by
  have hinv := Reach.invariant (P := fun s => ∃ m, s = some m ∧
      Regrouped serialize b.tDeltaUs m.pushed m.emitted m.buffer) h ?_ ?_
  · obtain ⟨m, hm, hregrouped⟩ := hinv
    exact ⟨m, hm, hregrouped.nothingLost hAxes⟩
  · refine ⟨_, rfl, rfl, [], [], rfl, by simp, ?_, by simp, by simp⟩
    unfold SerializingBuffer.empty at hb
    obtain ⟨tDeltaUs, -, hb⟩ := Option.bind_eq_some_iff.mp hb
    cases hb
    exact ⟨fun _ => rfl, nofun, fun init final hnil => by simp at hnil, List.isChain_nil,
      moderate_zero, moderate_zero, hdelta⟩
  · rintro s op ⟨m, rfl, hm⟩ hop
    cases op with
    | pushData data =>
      obtain ⟨result, b', hpush, hnext⟩ := hm.pushData hAxes hop
      exact ⟨_, by simp only [Manager.exec, Option.bind_eq_bind, Option.bind_some, hpush]; rfl,
        hnext⟩
    | forceSerialize => exact ⟨_, rfl, hm.forceSerialize hAxes⟩
    | setTimeout timeoutUs =>
      obtain ⟨hd, packets, group, hemitted, hpackets, hholds, hsamples, hsub⟩ := hm
      exact ⟨_, rfl, hd, packets, group, hemitted, hpackets, hholds.setTimeout timeoutUs, hsamples,
        hsub⟩

end Runs

/-! ### A buffer of four samples at 1 kHz -/

/-- The length of a push -/
def pushLen : ℕ := 1

/-- One sample at `t` -/
def sampleAt (t : Int64) (v : ℕ) : SampleData ℕ 1 4 where
  capacity := pushLen
  capacity_le := by decide
  t := t
  len := pushLen
  len_le := le_rfl
  samples _ _ := v
  tLast := t
  fs := 1000

/-- The empty buffer for an interval of 1000 microseconds -/
def khzBuffer : SerializingBuffer ℕ 1 4 := ⟨UniformSamples.empty 1000, 0, 2000, 1000000⟩

/-- The calls one after the other; a packet is the list of its samples. -/
def khzRun (ops : List (Op ℕ 1 4)) : Option (Manager ℕ (List ℕ) 1 4) :=
  ops.foldl (Manager.exec fun u => reported u 0) (some ⟨khzBuffer, [], []⟩)

theorem nothing_lost_twoPushes :
    ∃ m, khzRun [.pushData (sampleAt 1000 7), .pushData (sampleAt 2000 8), .forceSerialize] = some m ∧
      NothingLost (fun u => reported u 0) 2000 m := by
  have hplausible : ∀ t v, t ≠ 0 → Moderate t → Plausible 2000 (sampleAt t v) := by
    intro t v hne ht
    exact ⟨hne, show t.toInt ≤ t.toInt + 2000 by omega, ht, ht⟩
  refine nothing_lost (by decide) (fun u => reported u 0)
    (show SerializingBuffer.empty (fun _ => 1000) 1000 1000000 = some khzBuffer from rfl)
    ⟨by decide, by decide⟩ (Reach.run _ .start ⟨?_, ?_, trivial, trivial⟩)
  · exact hplausible 1000 7 (by decide) ⟨by decide, by decide⟩
  · exact hplausible 2000 8 (by decide) ⟨by decide, by decide⟩

/-- Samples two intervals apart are joined, so that the third of them is reported two intervals early.
A sample at zero is not reported. Data that starts far behind its end, and timestamps at the end of the
range, do not return. -/
theorem nothing_lost_fails :
    ((khzRun [.pushData (sampleAt 1000 7), .pushData (sampleAt 3000 8), .pushData (sampleAt 5000 9)]).map
        fun m => (reported m.buffer.sampleBuffer 0,
          sampleTimestamp (fun _ => 1000) m.buffer.sampleBuffer.t m.buffer.sampleBuffer.fs 2)) =
        some ([7, 8, 9], some 3000) ∧
      ((khzRun [.pushData (sampleAt 0 7)]).map fun m => (m.emitted, reported m.buffer.sampleBuffer 0)) =
        some ([], []) ∧
      (∀ fuel, pushData (fun u => some (reported u 0)) fuel khzBuffer
        { sampleAt 5000 7 with tLast := 1000 } = none) ∧
      khzRun [.pushData (sampleAt Int64.maxValue 7)] = none := by
  refine ⟨by decide +kernel, by decide +kernel, fun fuel => ?_, ?_⟩
  · exact pushDataLoop_stuck rfl ⟨by decide, by decide⟩ ⟨by decide, by decide⟩ (by decide) fuel none
  · rw [← Option.isNone_iff_eq_none]
    decide +kernel

end SensorLink.Dispatch
