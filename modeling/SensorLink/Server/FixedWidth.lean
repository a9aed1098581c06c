import SensorLink.Server.DownsampleCover
import Mathlib.Data.List.Nodup
import Mathlib.Data.Nat.Find

/-!
# Downsampling to a fixed width

The first and the last full bucket are found by the remainders of the timestamps, while the buckets are cut by
their ends. The result has the full intervals with their samples only where the two agree, which asks for
samples that are placed well.
-/

namespace SensorLink.Server

/-! ### What is to be emitted -/

/-- The width that is used, which is longer than the one asked for when there would be too many samples -/
def usedWidth (t : List ℤ) (widthMs : ℤ) : ℤ :=
  let timeRange := nth t (t.length - 1) - nth t 0
  if timeRange / widthMs > maxNumSamples then timeRange / maxNumSamples else widthMs

/-- The interval `k` lies completely between the first and the last timestamp. -/
def FullInterval (t : List ℤ) (w k : ℤ) : Prop := nth t 0 ≤ k * w ∧ (k + 1) * w ≤ nth t (t.length - 1)

def Within (w k x : ℤ) : Prop := k * w ≤ x ∧ x < (k + 1) * w

/-- The buckets are the full intervals with their samples, each once. -/
structure ExactBuckets (t : List ℤ) (w : ℤ) (buckets : List Bucket) : Prop where
  full : ∀ b ∈ buckets, ∃ k, FullInterval t w k ∧ b.ts = k * w ∧
    ∀ i < t.length, b.startIdx ≤ i ∧ i < b.endIdx ↔ Within w k (nth t i)
  once : ∀ k, FullInterval t w k → (∃ x ∈ t, Within w k x) → (buckets.map Bucket.ts).count (k * w) = 1

/-- The run has a result, with a sample for each full interval that has samples and for no other one. -/
def EmitsExactly {F : Type} (numbers : Numbers F) (fuel : ℕ) (series : MPSensorData F) (widthMs : ℤ)
    (preference : DownsamplePreference) : Prop :=
  let buckets := formed numbers fuel series.time (.bucketWidthMs widthMs)
  (∃ out, downsample numbers fuel series ⟨.bucketWidthMs widthMs, preference⟩ = .ok out ∧
    Aggregates numbers series buckets out) ∧
  ExactBuckets series.time (usedWidth series.time widthMs) buckets

/-! ### How the samples are placed -/

/-- The remainder by the width asked for is smaller than that of the sample before. -/
def Falls (t : List ℤ) (widthMs : ℤ) (i : ℕ) : Prop :=
  1 ≤ i ∧ i < t.length ∧ nth t i % widthMs < nth t (i - 1) % widthMs

def FirstFall (t : List ℤ) (widthMs : ℤ) (i : ℕ) : Prop :=
  Falls t widthMs i ∧ ∀ j < i, ¬ Falls t widthMs j

def LastFall (t : List ℤ) (widthMs : ℤ) (i : ℕ) : Prop :=
  Falls t widthMs i ∧ ∀ j, i < j → ¬ Falls t widthMs j

/-- The sample lies in a full interval. -/
structure InFull (t : List ℤ) (w : ℤ) (i : ℕ) : Prop where
  lt : i < t.length
  first : nth t 0 ≤ roundDown w (nth t i)
  last : roundDown w (nth t i) + w ≤ nth t (t.length - 1)

/-- The samples from `a` to `z` are those of the full intervals, the falls are at their ends, and no sample is
exactly at the end of the full interval before it. -/
structure Aligned (t : List ℤ) (w widthMs : ℤ) (a z : ℕ) : Prop where
  first : InFull t w a ∧ ∀ i < a, ¬ InFull t w i
  last : InFull t w z ∧ ∀ i, z < i → ¬ InFull t w i
  starts : FirstFall t widthMs a ∨ a = 0 ∧ ∀ i, ¬ Falls t widthMs i
  -- the sample two before the last fall is in the last interval
  ends : (∃ i, LastFall t widthMs (i + 2) ∧ roundDown w (nth t z) ≤ nth t i ∧ i ≤ z) ∨
    z + 2 = t.length ∧ ∀ i, ¬ Falls t widthMs i
  apart : ∀ i, InFull t w i → nth t (i + 1) ≠ roundDown w (nth t i) + w

/-- No sample lies in a full interval, and there is no room between the first and the last fall. -/
def NothingFull (t : List ℤ) (w widthMs : ℤ) : Prop :=
  (∀ i, ¬ InFull t w i) ∧
    (t.length = 1 ∨ ∃ i, FirstFall t widthMs i ∧ ∀ j, i + 1 < j → ¬ Falls t widthMs j)

def WellPlaced (t : List ℤ) (numValues : ℕ) (widthMs : ℤ) : Prop :=
  NothingFull t (usedWidth t widthMs) widthMs ∨
    ∃ a z, Aligned t (usedWidth t widthMs) widthMs a z ∧ z < numValues

/-! ### The scans -/

section Scan

variable {t : List ℤ} {w : ℤ}

/-- A scan stops at the first remainder that is found against the one before. -/
lemma scanModulo_eq_ok {found : ℤ → ℤ → Prop} [DecidableRel found] {kept : ℤ} {r : Option ℕ}
    (h : scanModulo w found t kept = .ok r) :
    (∀ i ∈ r, i < t.length ∧ found ((nth t i).tmod w) (nth (kept :: t.map (·.tmod w)) i)) ∧
    ∀ j < t.length, (∀ i ∈ r, j < i) →
      ¬ found ((nth t j).tmod w) (nth (kept :: t.map (·.tmod w)) j) := by
  induction t generalizing kept r with
  | nil =>
    obtain rfl := Except.ok.inj h
    exact ⟨fun _ hi => (nomatch hi), fun _ hj => (nomatch hj)⟩
  | cons x rest ih =>
    obtain ⟨modulo, hrem, h⟩ := bind_eq_ok h
    obtain rfl := rem_eq_ok hrem
    split_ifs at h with hfound
    · obtain rfl := Except.ok.inj h
      refine ⟨?_, fun j _ hbefore => absurd (hbefore 0 rfl) (Nat.not_lt_zero j)⟩
      rintro _ ⟨rfl⟩
      exact ⟨Nat.zero_lt_succ _, hfound⟩
    · obtain ⟨index, hindex, h⟩ := bind_eq_ok h
      obtain rfl := Except.ok.inj h
      obtain ⟨hstop, hgo⟩ := ih hindex
      refine ⟨fun i hi => ?_, fun j hj hbefore => ?_⟩
      · obtain ⟨i, hsome, rfl⟩ := Option.map_eq_some_iff.mp hi
        obtain ⟨hlt, hfound⟩ := hstop i hsome
        exact ⟨Nat.succ_lt_succ hlt, hfound⟩
      · cases j with
        | zero => exact hfound
        | succ j =>
          refine hgo j (Nat.lt_of_succ_lt_succ hj) fun i hi => ?_
          exact Nat.lt_of_succ_lt_succ (hbefore (i + 1) (Option.map_eq_some_iff.mpr ⟨i, hi, rfl⟩))

lemma nth_remainders (t : List ℤ) (w kept : ℤ) (i : ℕ) :
    nth (kept :: t.map (·.tmod w)) (i + 1) = (nth t i).tmod w := by
  have hmap := List.getD_map (l := t) (d := 0) (n := i) fun x => Int.tmod x w
  rwa [Int.zero_tmod] at hmap

lemma nth_reverse {i : ℕ} (hi : i < t.length) : nth t.reverse i = nth t (t.length - 1 - i) := by
  rw [nth_eq (by rwa [List.length_reverse]), nth_eq (by omega), List.getElem_reverse]

variable (hnonneg : ∀ x ∈ t, 0 ≤ x)
include hnonneg

lemma tmod_nth {i : ℕ} (hi : i < t.length) : (nth t i).tmod w = nth t i % w :=
  Int.tmod_eq_emod_of_nonneg (hnonneg _ (nth_mem hi))

/-- The scan from the start finds the first fall. -/
lemma scan_start {r : Option ℕ} (h : scanModulo w (· < ·) t 0 = .ok r) :
    FirstFall t w (r.getD 0) ∨ r.getD 0 = 0 ∧ ∀ i, ¬ Falls t w i := by
  obtain ⟨hstop, hgo⟩ := scanModulo_eq_ok h
  have hbefore : ∀ j, (∀ i ∈ r, j < i) → ¬ Falls t w j := by
    rintro j hj ⟨hpos, hlt, hfall⟩
    obtain ⟨j, rfl⟩ : ∃ before, j = before + 1 := ⟨j - 1, by omega⟩
    have hnot := hgo _ hlt hj
    rw [nth_remainders, tmod_nth hnonneg hlt, tmod_nth hnonneg (by omega : j < t.length)] at hnot
    exact hnot hfall
  cases r with
  | none => exact .inr ⟨rfl, fun i => hbefore i fun _ hi => (nomatch hi)⟩
  | some i =>
    left
    refine ⟨?_, fun j hj => hbefore j fun _ hi => Option.some.inj hi ▸ hj⟩
    obtain ⟨hlt, hfall⟩ := hstop i rfl
    cases i with
    | zero =>
      have hpos := Int.tmod_nonneg w (hnonneg _ (nth_mem hlt))
      exact absurd hfall (Int.not_lt.mpr hpos)
    | succ i =>
      rw [nth_remainders, tmod_nth hnonneg hlt, tmod_nth hnonneg (by omega : i < t.length)] at hfall
      exact ⟨Nat.succ_pos i, hlt, hfall⟩

/-- The scan from the end finds the sample before the last fall. -/
lemma scan_last (hw : 0 < w) {r : Option ℕ} (h : scanModulo w (· > ·) t.reverse w = .ok r) (ht : t ≠ [])
    {e : ℕ} (he : e = (r.map (t.length - 1 - ·)).getD (t.length - 1)) :
    LastFall t w (e + 1) ∨ e = t.length - 1 ∧ ∀ i, ¬ Falls t w i := by
  obtain ⟨hstop, hgo⟩ := scanModulo_eq_ok h
  have hlen := List.length_pos_iff.mpr ht
  have hbefore : ∀ j, (∀ i ∈ r, t.length - j < i) → ¬ Falls t w j := by
    rintro j hj ⟨hpos, hlt, hfall⟩
    obtain ⟨i, hi⟩ : ∃ i, t.length - j = i + 1 := ⟨t.length - j - 1, by omega⟩
    have hnot := hgo (i + 1) (by rw [List.length_reverse]; omega) (hi ▸ hj)
    rw [nth_remainders, nth_reverse (by omega), nth_reverse (by omega)] at hnot
    rw [show t.length - 1 - (i + 1) = j - 1 by omega, show t.length - 1 - i = j by omega,
      tmod_nth hnonneg hlt, tmod_nth hnonneg (by omega : j - 1 < t.length)] at hnot
    exact hnot hfall
  cases r with
  | none => exact .inr ⟨he, fun i => hbefore i fun _ hi => (nomatch hi)⟩
  | some i =>
    left
    obtain ⟨hlt, hfall⟩ := hstop i rfl
    rw [List.length_reverse] at hlt
    rw [nth_reverse hlt] at hfall
    cases i with
    | zero =>
      have hbound := Int.tmod_lt_of_pos (nth t (t.length - 1 - 0)) hw
      exact absurd hfall (Int.not_lt.mpr hbound.le)
    | succ i =>
      have he' : e = t.length - 1 - (i + 1) := he
      rw [nth_remainders, nth_reverse (by omega), ← he', show t.length - 1 - i = e + 1 by omega,
        tmod_nth hnonneg (by omega), tmod_nth hnonneg (by omega)] at hfall
      refine ⟨⟨Nat.succ_pos e, by omega, hfall⟩, fun j hj => hbefore j ?_⟩
      rintro _ ⟨rfl⟩
      omega

end Scan

/-! ### Full intervals -/

section Full

variable {t : List ℤ} {w k x : ℤ} {a i j z : ℕ}

lemma within_iff (hw : 0 < w) (hx : 0 ≤ x) : Within w k x ↔ roundDown w x = k * w := by
  obtain ⟨q, hq⟩ := roundDown_dvd w x
  obtain ⟨-, hle⟩ := roundDown_nonneg hw hx
  have hlt := le_roundDown_add hw x
  rw [Int.mul_comm] at hq
  rw [hq] at hle hlt ⊢
  unfold Within
  rw [Int.add_mul, Int.one_mul]
  constructor
  · rintro ⟨hlow, hhigh⟩
    have hqk : q < k + 1 := lt_of_mul_lt_mul_right (by rw [Int.add_mul]; omega) hw.le
    have hkq : k < q + 1 := lt_of_mul_lt_mul_right (by rw [Int.add_mul]; omega) hw.le
    rw [show q = k by omega]
  · intro heq
    omega

lemma roundDown_mono (hw : 0 < w) {y : ℤ} (hx : 0 ≤ x) (hxy : x ≤ y) : roundDown w x ≤ roundDown w y :=
  le_roundDown hw (roundDown_dvd w x) (hx.trans hxy) ((roundDown_nonneg hw hx).2.trans hxy)

lemma InFull.interval (hi : InFull t w i) : ∃ k, FullInterval t w k ∧ roundDown w (nth t i) = k * w := by
  obtain ⟨k, hk⟩ := roundDown_dvd w (nth t i)
  rw [Int.mul_comm] at hk
  have hfirst := hi.first
  have hlast := hi.last
  rw [hk] at hfirst hlast
  exact ⟨k, ⟨hfirst, by rwa [Int.add_mul, Int.one_mul]⟩, hk⟩

lemma FullInterval.inFull (hfull : FullInterval t w k) (hi : i < t.length)
    (heq : roundDown w (nth t i) = k * w) : InFull t w i := by
  obtain ⟨hfirst, hlast⟩ := hfull
  rw [Int.add_mul, Int.one_mul] at hlast
  exact ⟨hi, by rwa [heq], by rwa [heq]⟩

/-- A full interval ends before the last sample. -/
lemma InFull.succ_lt (hw : 0 < w) (hi : InFull t w i) : i + 1 < t.length := by
  by_contra hc
  have hlt := hi.lt
  have hlast := hi.last
  rw [show t.length - 1 = i by omega] at hlast
  have := le_roundDown_add hw (nth t i)
  omega

section Ascending

variable (h : t.Pairwise (· ≤ ·)) (hw : 0 < w) (hnonneg : ∀ x ∈ t, 0 ≤ x)
include h hw hnonneg

lemma InFull.between (ha : InFull t w a) (hz : InFull t w z) (haj : a ≤ j) (hjz : j ≤ z) :
    InFull t w j := by
  have hj : j < t.length := hjz.trans_lt hz.lt
  have hlow := roundDown_mono hw (hnonneg _ (nth_mem ha.lt)) (nth_le_nth h haj hj)
  have hhigh := roundDown_mono hw (hnonneg _ (nth_mem hj)) (nth_le_nth h hjz hz.lt)
  have hfirst := ha.first
  have hlast := hz.last
  exact ⟨hj, by omega, by omega⟩

/-- What lies between the timestamp of a bucket and a sample of it is in the same interval. -/
lemma roundDown_eq_of_le (hij : i ≤ j) (hj : j < t.length) (hle : roundDown w (nth t j) ≤ nth t i) :
    roundDown w (nth t i) = roundDown w (nth t j) := by
  have hi := hnonneg _ (nth_mem (hij.trans_lt hj))
  have hup := roundDown_mono hw hi (nth_le_nth h hij hj)
  have hdown := le_roundDown hw (roundDown_dvd w (nth t j)) hi hle
  omega

end Ascending

end Full

/-! ### The buckets of a chain -/

section Chain

variable {t : List ℤ} {w : ℤ} {lastIdx i j : ℕ} {buckets : List Bucket}

/-- Each index of the range is in a bucket. -/
lemma Chain.covers (hchain : Chain t w lastIdx i buckets) (hij : i ≤ j) (hj : j < lastIdx) :
    ∃ b ∈ buckets, b.startIdx ≤ j ∧ j < b.endIdx := by
  induction hchain with
  | done hle => omega
  | @form i buckets hlt _ ih =>
    rcases Nat.lt_or_ge j (bucketAt t w i).endIdx with hinside | hbehind
    · exact ⟨_, List.mem_cons_self, hij, hinside⟩
    · obtain ⟨b, hb, hmem⟩ := ih hbehind
      exact ⟨b, List.mem_cons_of_mem _ hb, hmem⟩

/-- A bucket reaches the end of the range. -/
lemma Chain.reaches (hchain : Chain t w lastIdx i buckets) (hi : i < lastIdx) :
    ∃ b ∈ buckets, lastIdx ≤ b.endIdx := by
  induction hchain with
  | done hle => omega
  | @form i buckets hlt _ ih =>
    rcases Nat.lt_or_ge (bucketAt t w i).endIdx lastIdx with hmore | hreached
    · obtain ⟨b, hb, hmem⟩ := ih hmore
      exact ⟨b, List.mem_cons_of_mem _ hb, hmem⟩
    · exact ⟨_, List.mem_cons_self, hreached⟩

/-- The samples of the full intervals are those from `a` to `z`, and the range of the loop goes with them. -/
structure Placed (t : List ℤ) (w : ℤ) (startIdx lastIdx z : ℕ) : Prop where
  first : InFull t w startIdx ∧ ∀ i < startIdx, ¬ InFull t w i
  last : InFull t w z ∧ ∀ i, z < i → ¬ InFull t w i
  reached : 1 ≤ lastIdx ∧ roundDown w (nth t z) ≤ nth t (lastIdx - 1)
  stopped : lastIdx ≤ z + 1
  apart : ∀ i, InFull t w i → nth t (i + 1) ≠ roundDown w (nth t i) + w

/-- Without a sample in a full interval there is nothing to emit. -/
lemma exactBuckets_nil (hw : 0 < w) (hnonneg : ∀ x ∈ t, 0 ≤ x) :
    ExactBuckets t w [] ↔ ∀ i, ¬ InFull t w i := by
  constructor
  · intro hexact i hi
    obtain ⟨k, hfull, heq⟩ := hi.interval
    have hmem := nth_mem hi.lt
    cases hexact.once k hfull ⟨_, hmem, (within_iff hw (hnonneg _ hmem)).mpr heq⟩
  · intro hnone
    refine ⟨fun _ hb => (nomatch hb), ?_⟩
    rintro k hfull ⟨x, hx, hwithin⟩
    obtain ⟨i, hi, rfl⟩ := List.mem_iff_getElem.mp hx
    rw [← nth_eq hi] at hwithin
    exact absurd (hfull.inFull hi ((within_iff hw (hnonneg _ (nth_mem hi))).mp hwithin)) (hnone i)

section Exact

variable (hw : 0 < w) (hnonneg : ∀ x ∈ t, 0 ≤ x) (hexact : ExactBuckets t w buckets)
include hw hnonneg hexact

/-- The bucket of a sample in a full interval has the samples of this interval. -/
lemma ExactBuckets.exists_bucket (hi : InFull t w i) : ∃ b ∈ buckets, ∀ j < t.length,
    b.startIdx ≤ j ∧ j < b.endIdx ↔ roundDown w (nth t j) = roundDown w (nth t i) := by
  obtain ⟨k, hfull, heq⟩ := hi.interval
  have hmem := nth_mem hi.lt
  have honce := hexact.once k hfull ⟨_, hmem, (within_iff hw (hnonneg _ hmem)).mpr heq⟩
  obtain ⟨b, hb, hts⟩ := List.mem_map.mp (List.count_pos_iff.mp (honce ▸ Nat.one_pos))
  obtain ⟨k', -, hts', hsamples⟩ := hexact.full b hb
  refine ⟨b, hb, fun j hj => ?_⟩
  rw [hsamples j hj, within_iff hw (hnonneg _ (nth_mem hj)), heq, ← hts', hts]

lemma ExactBuckets.inFull {b : Bucket} (hb : b ∈ buckets) (hj : j < t.length) (hstart : b.startIdx ≤ j)
    (hend : j < b.endIdx) : InFull t w j := by
  obtain ⟨k, hfull, -, hsamples⟩ := hexact.full b hb
  exact hfull.inFull hj ((within_iff hw (hnonneg _ (nth_mem hj))).mp ((hsamples j hj).mp ⟨hstart, hend⟩))

/-- No bucket goes on behind the last sample of the full intervals. -/
lemma ExactBuckets.endIdx_le {b : Bucket} {z : ℕ} (hb : b ∈ buckets) (hgrow : b.startIdx < b.endIdx)
    (hend : b.endIdx ≤ t.length) (hbehind : ∀ j, z < j → ¬ InFull t w j) : b.endIdx ≤ z + 1 := by
  by_contra hc
  exact hbehind (b.endIdx - 1) (by omega) (hexact.inFull hw hnonneg hb (by omega) (by omega) (by omega))

/-- Where the range of a chain is, if its buckets are those that are wanted -/
lemma ExactBuckets.placed (h : t.Pairwise (· ≤ ·)) (hchain : Chain t w lastIdx i buckets)
    (hi : i < lastIdx) (hlast : lastIdx ≤ t.length) : ∃ z, Placed t w i lastIdx z := by
  have hbounds := (hchain.bounds h hw hlast).2
  have hfirst : InFull t w i := by
    obtain ⟨b, hb, hstart, hend⟩ := hchain.covers (Nat.le_refl i) hi
    exact hexact.inFull hw hnonneg hb (hi.trans_le hlast) hstart hend
  obtain ⟨z, hz, hbehind⟩ : ∃ z, InFull t w z ∧ ∀ j, z < j → ¬ InFull t w j := by
    classical
    refine ⟨Nat.findGreatest (InFull t w) t.length, Nat.findGreatest_spec hfirst.lt.le hfirst, ?_⟩
    exact fun j hj hfull => Nat.findGreatest_is_greatest hj hfull.lt.le hfull
  refine ⟨z, ⟨hfirst, fun j hj hfull => ?_⟩, ⟨hz, hbehind⟩, ⟨by omega, ?_⟩, ?_, fun j hfull hend => ?_⟩
  · -- the bucket of an earlier sample would start before the range
    obtain ⟨b, hb, hsamples⟩ := hexact.exists_bucket hw hnonneg hfull
    have hstart := ((hsamples j hfull.lt).mpr rfl).1
    have := (hbounds b hb).2.1
    omega
  · obtain ⟨b, hb, hsamples⟩ := hexact.exists_bucket hw hnonneg hz
    obtain ⟨-, -, hbefore, hgrow⟩ := hbounds b hb
    have hlt : b.startIdx < t.length := hbefore.trans_le hlast
    rw [← (hsamples _ hlt).mp ⟨Nat.le_refl _, hgrow⟩]
    have hle := (roundDown_nonneg hw (hnonneg _ (nth_mem hlt))).2
    exact hle.trans (nth_le_nth h (by omega) (by omega))
  · obtain ⟨b, hb, hreached⟩ := hchain.reaches hi
    obtain ⟨-, -, -, hgrow⟩ := hbounds b hb
    exact hreached.trans (hexact.endIdx_le hw hnonneg hb hgrow (hchain.endIdx_le hb) hbehind)
  · -- a sample at the end of the interval would be in its bucket
    obtain ⟨b, hb, hsamples⟩ := hexact.exists_bucket hw hnonneg hfull
    obtain ⟨heq, -, hbefore, hgrow⟩ := hbounds b hb
    have hsame := (hsamples _ (hbefore.trans_le hlast)).mp ⟨Nat.le_refl _, hgrow⟩
    have hnext := hfull.succ_lt hw
    have hinside : j + 1 < b.endIdx := by
      rw [heq]
      exact (lt_endIdx_iff h hnext).mpr (by rw [hsame, hend])
    have hstart := ((hsamples j hfull.lt).mpr rfl).1
    have hround := (hsamples _ hnext).mp ⟨by omega, hinside⟩
    have := le_roundDown_add hw (nth t (j + 1))
    omega

end Exact

section Placed

variable (h : t.Pairwise (· < ·)) (hw : 0 < w) (hnonneg : ∀ x ∈ t, 0 ≤ x)
include h hw hnonneg

/-- With no sample at its end, a bucket has the samples before its end. -/
lemma lt_endIdx_apart (hfull : InFull t w i)
    (hapart : ∀ i, InFull t w i → nth t (i + 1) ≠ roundDown w (nth t i) + w) (hj : j < t.length) :
    j < (bucketAt t w i).endIdx ↔ nth t j < roundDown w (nth t i) + w := by
  have hle : t.Pairwise (· ≤ ·) := h.imp fun hab => Int.le_of_lt hab
  rw [lt_endIdx_iff hle hj]
  refine ⟨fun hj' => lt_of_le_of_ne hj' fun hend => ?_, fun hj' => hj'.le⟩
  have hi := le_roundDown_add hw (nth t i)
  have hij : i < j := by
    by_contra hc
    have := nth_le_nth hle (Nat.not_lt.mp hc) hfull.lt
    omega
  -- the sample before it is in the interval, and this one follows at its end
  have hbefore : nth t (j - 1) < nth t j := by
    rw [nth_eq hj, nth_eq (by omega)]
    exact List.pairwise_iff_getElem.mp h _ _ _ hj (by omega)
  have hlow := nth_le_nth hle (by omega : i ≤ j - 1) (by omega)
  have hround := (roundDown_nonneg hw (hnonneg _ (nth_mem hfull.lt))).2
  obtain ⟨k, hinterval, heq⟩ := hfull.interval
  have hwithin : Within w k (nth t (j - 1)) := by
    unfold Within
    rw [Int.add_mul, Int.one_mul, ← heq]
    omega
  have hsame := (within_iff hw (hnonneg _ (nth_mem (by omega)))).mp hwithin
  refine hapart _ (hinterval.inFull (by omega) hsame) ?_
  rw [Nat.sub_add_cancel (by omega), hsame, ← heq, hend]

variable {startIdx z : ℕ} (hplaced : Placed t w startIdx lastIdx z)
include hplaced

/-- The buckets of a range that is placed so are full intervals with their samples. -/
lemma Placed.full (hchain : Chain t w lastIdx i buckets) (hi : startIdx ≤ i)
    (hbehind : i < t.length → ∀ j < i, nth t j < roundDown w (nth t i)) :
    ∀ b ∈ buckets, ∃ k, FullInterval t w k ∧ b.ts = k * w ∧
      ∀ j < t.length, b.startIdx ≤ j ∧ j < b.endIdx ↔ Within w k (nth t j) := by
  have hle : t.Pairwise (· ≤ ·) := h.imp fun hab => Int.le_of_lt hab
  induction hchain with
  | done hle => exact fun _ hb => (nomatch hb)
  | @form i buckets hlt _ ih =>
    have hz : i ≤ z := by
      have := hplaced.stopped
      omega
    have hfull := InFull.between hle hw hnonneg hplaced.first.1 hplaced.last.1 hi hz
    have hend {j : ℕ} (hj : j < t.length) := lt_endIdx_apart h hw hnonneg hfull hplaced.apart hj
    intro b hb
    rcases List.mem_cons.mp hb with rfl | hb
    · obtain ⟨k, hinterval, heq⟩ := hfull.interval
      refine ⟨k, hinterval, heq, fun j hj => ?_⟩
      rw [hend hj, heq]
      unfold Within
      rw [Int.add_mul, Int.one_mul]
      refine and_congr_left fun _ => ⟨fun hij => ?_, fun hlow => ?_⟩
      · rw [← heq]
        exact (roundDown_nonneg hw (hnonneg _ (nth_mem hfull.lt))).2.trans (nth_le_nth hle hij hj)
      · by_contra hc
        have := hbehind hfull.lt j (Nat.not_le.mp hc)
        omega
    · have hgrow := lt_endIdx hle hfull.lt hw
      refine ih (by omega) (fun hnext j hj => ?_) b hb
      have hstep := roundDown_add_le hle hw hnonneg hnext (Nat.le_refl _)
      exact ((hend (hj.trans hnext)).mp hj).trans_le hstep

/-- The chain of a range that is placed so has the buckets that are wanted. -/
lemma Placed.exactBuckets (hchain : Chain t w lastIdx startIdx buckets) (hlast : lastIdx ≤ t.length) :
    ExactBuckets t w buckets := by
  have hle : t.Pairwise (· ≤ ·) := h.imp fun hab => Int.le_of_lt hab
  have hfull := hplaced.full h hw hnonneg hchain (Nat.le_refl _) fun hstart j hj => by
    -- a sample of the same interval would be in a full interval too
    by_contra hc
    have hsame := roundDown_eq_of_le hle hw hnonneg hj.le hstart (Int.not_lt.mp hc)
    have hfirst := hplaced.first.1
    exact hplaced.first.2 j hj
      ⟨hj.trans hstart, by rw [hsame]; exact hfirst.first, by rw [hsame]; exact hfirst.last⟩
  refine ⟨hfull, ?_⟩
  rintro k hinterval ⟨x, hx, hwithin⟩
  have hnodup : (buckets.map Bucket.ts).Nodup :=
    (hchain.increasing hle hw hnonneg hlast).imp fun hab => Int.ne_of_lt hab
  refine List.count_eq_one_of_mem hnodup ?_
  obtain ⟨j, hj, rfl⟩ := List.mem_iff_getElem.mp hx
  rw [← nth_eq hj, within_iff hw (hnonneg _ (nth_mem hj))] at hwithin
  have hinfull := hinterval.inFull hj hwithin
  have hjz : j ≤ z := by
    by_contra hc
    exact hplaced.last.2 j (Nat.not_le.mp hc) hinfull
  have hstart : startIdx ≤ j := by
    by_contra hc
    exact hplaced.first.2 j (Nat.not_le.mp hc) hinfull
  obtain ⟨hpos, hreached⟩ := hplaced.reached
  -- behind the range, the last sample in it is in the same interval
  obtain ⟨i, hi, hi', hsame⟩ : ∃ i, startIdx ≤ i ∧ i < lastIdx ∧ roundDown w (nth t i) = k * w := by
    rcases Nat.lt_or_ge j lastIdx with hinside | hafter
    · exact ⟨j, hstart, hinside, hwithin⟩
    · have hup := roundDown_mono hw (hnonneg _ (nth_mem hj)) (nth_le_nth hle hjz hplaced.last.1.lt)
      have hround := roundDown_eq_of_le hle hw hnonneg (by omega : lastIdx - 1 ≤ j) hj (hup.trans hreached)
      have hinfull' := hinterval.inFull (by omega) (hround.trans hwithin)
      refine ⟨lastIdx - 1, ?_, by omega, hround.trans hwithin⟩
      by_contra hc
      exact hplaced.first.2 _ (Nat.not_le.mp hc) hinfull'
  obtain ⟨b, hb, hstart', hend'⟩ := hchain.covers hi hi'
  obtain ⟨k', -, hts, hsamples⟩ := hfull b hb
  have hmem : i < t.length := hi'.trans_le hlast
  have hwithin' := (within_iff hw (hnonneg _ (nth_mem hmem))).mp ((hsamples i hmem).mp ⟨hstart', hend'⟩)
  rw [← hsame, hwithin', ← hts]
  exact List.mem_map_of_mem hb

end Placed

end Chain

/-! ### Runs of a fixed width -/

section Runs

variable {F : Type} {numbers : Numbers F} {series : MPSensorData F} {preference : DownsamplePreference}
  {t : List ℤ} {w widthMs : ℤ} {startIdx lastIdx fuel i j : ℕ}

lemma FirstFall.eq (hi : FirstFall t widthMs i) (hj : FirstFall t widthMs j) : i = j :=
  Nat.le_antisymm (Nat.not_lt.mp fun hlt => hi.2 j hlt hj.1) (Nat.not_lt.mp fun hlt => hj.2 i hlt hi.1)

lemma LastFall.eq (hi : LastFall t widthMs i) (hj : LastFall t widthMs j) : i = j :=
  Nat.le_antisymm (Nat.not_lt.mp fun hlt => hj.2 i hlt hi.1) (Nat.not_lt.mp fun hlt => hi.2 j hlt hj.1)

/-- The range of the loop, as the falls determine it -/
structure FallRange (t : List ℤ) (widthMs : ℤ) (startIdx lastIdx : ℕ) : Prop where
  start : FirstFall t widthMs startIdx ∨ startIdx = 0 ∧ ∀ i, ¬ Falls t widthMs i
  last : LastFall t widthMs (lastIdx + 1) ∨ lastIdx = t.length - 1 ∧ ∀ i, ¬ Falls t widthMs i

lemma bucketPlan_fixed (h : t.Pairwise (· ≤ ·)) (hnonneg : ∀ x ∈ t, 0 ≤ x) (hw : 1 ≤ widthMs)
    (hplan : bucketPlan numbers t (.bucketWidthMs widthMs) = .ok (some (w, startIdx, lastIdx))) :
    w = usedWidth t widthMs ∧ FallRange t widthMs startIdx lastIdx := by
  obtain ⟨ht, n, hwidth, -, hrange⟩ := bucketPlan_eq_some hplan
  constructor
  · obtain ⟨-, heq⟩ := bucketWidthMs_fixed h ht hw hwidth
    unfold usedWidth
    dsimp only
    split_ifs at heq ⊢ with hmany
    · exact (Prod.mk.inj heq).1
    · exact (Prod.mk.inj heq).1
  · obtain ⟨start, hstart, hrange⟩ := bind_eq_ok hrange
    obtain ⟨last, hlast, hrange⟩ := bind_eq_ok hrange
    obtain ⟨hstartIdx, hlastIdx⟩ := Prod.mk.inj (Except.ok.inj hrange)
    constructor
    · rw [← hstartIdx]
      exact scan_start hnonneg hstart
    · exact scan_last hnonneg hw hlast ht hlastIdx.symm

namespace FallRange

variable (hrange : FallRange t widthMs startIdx lastIdx)
include hrange

/-- The loop has no turn where there is no room between the first and the last fall. -/
lemma lastIdx_le_iff (ht : t ≠ []) : lastIdx ≤ startIdx ↔
    t.length = 1 ∨ ∃ i, FirstFall t widthMs i ∧ ∀ j, i + 1 < j → ¬ Falls t widthMs j := by
  have hlen := List.length_pos_iff.mpr ht
  constructor
  · intro hle
    rcases hrange.start with hstart | ⟨rfl, hnone⟩
    · refine .inr ⟨startIdx, hstart, fun j hj => ?_⟩
      rcases hrange.last with hlast | ⟨-, hnone⟩
      · exact hlast.2 j (by omega)
      · exact hnone j
    · rcases hrange.last with hlast | ⟨rfl, -⟩
      · exact absurd hlast.1 (hnone _)
      · exact .inl (by omega)
  · rintro (hone | ⟨i, hfirst, hbehind⟩)
    · rcases hrange.last with hlast | ⟨rfl, -⟩
      · have := hlast.1.2.1
        omega
      · omega
    · rcases hrange.start with hstart | ⟨-, hnone⟩
      · obtain rfl := hstart.eq hfirst
        rcases hrange.last with hlast | ⟨-, hnone⟩
        · by_contra hc
          exact hbehind _ (by omega) hlast.1
        · exact absurd hfirst.1 (hnone _)
      · exact absurd hfirst.1 (hnone _)

lemma aligned_of_placed {z : ℕ} (hw : 0 < w) (hplaced : Placed t w startIdx lastIdx z) :
    Aligned t w widthMs startIdx z := by
  obtain ⟨hpos, hreached⟩ := hplaced.reached
  have hstopped := hplaced.stopped
  refine ⟨hplaced.first, hplaced.last, hrange.start, ?_, hplaced.apart⟩
  rcases hrange.last with hlast | ⟨rfl, hnone⟩
  · refine .inl ⟨lastIdx - 1, ?_, hreached, by omega⟩
    rwa [show lastIdx - 1 + 2 = lastIdx + 1 by omega]
  · have := hplaced.last.1.succ_lt hw
    exact .inr ⟨by omega, hnone⟩

lemma placed_of_aligned {a z : ℕ} (hw : 0 < w) (hnonneg : ∀ x ∈ t, 0 ≤ x)
    (haligned : Aligned t w widthMs a z) : Placed t w startIdx lastIdx z := by
  have hstart : startIdx = a := by
    rcases hrange.start with hstart | ⟨rfl, hnone⟩ <;> rcases haligned.starts with hfirst | ⟨ha, hnone'⟩
    · exact hstart.eq hfirst
    · exact absurd hstart.1 (hnone' _)
    · exact absurd hfirst.1 (hnone _)
    · exact ha.symm
  have hlast : 1 ≤ lastIdx ∧ roundDown w (nth t z) ≤ nth t (lastIdx - 1) ∧ lastIdx ≤ z + 1 := by
    rcases hrange.last with hlast | ⟨rfl, hnone⟩ <;>
      rcases haligned.ends with ⟨i, hi, hreached, hle⟩ | ⟨hz, hnone'⟩
    · obtain rfl : lastIdx = i + 1 := Nat.succ_injective (hlast.eq hi)
      exact ⟨Nat.succ_pos i, hreached, Nat.succ_le_succ hle⟩
    · exact absurd hlast.1 (hnone' _)
    · exact absurd hi.1 (hnone _)
    · have hround := (roundDown_nonneg hw (hnonneg _ (nth_mem haligned.last.1.lt))).2
      rw [show t.length - 1 - 1 = z by omega]
      exact ⟨by omega, hround, by omega⟩
  rw [hstart]
  exact ⟨haligned.first, haligned.last, ⟨hlast.1, hlast.2.1⟩, hlast.2.2, haligned.apart⟩

end FallRange

/-- Each bucket adds at most one sample, and one each only where all of them have values. -/
lemma length_foldlM_addBucket {buckets : List Bucket} {out out' : MPSensorData F}
    (hrun : buckets.foldlM (addBucket numbers preference series) out = .ok out') :
    out'.time.length ≤ out.time.length + buckets.length ∧
      (out'.time.length = out.time.length + buckets.length →
        ∀ b ∈ buckets, b.endIdx ≤ series.values.length) := by
  induction buckets generalizing out with
  | nil =>
    obtain rfl := Except.ok.inj hrun
    exact ⟨Nat.le_refl _, fun _ _ hb => (nomatch hb)⟩
  | cons b buckets ih =>
    rw [List.foldlM_cons] at hrun
    obtain ⟨next, hadd, hrun⟩ := bind_eq_ok hrun
    obtain ⟨hle, hvalues⟩ := ih hrun
    rw [List.length_cons]
    cases hslice : b.slice series.values with
    | none =>
      rw [addBucket_skip numbers preference series out b hslice] at hadd
      obtain rfl := Except.ok.inj hadd
      exact ⟨by omega, fun heq => by omega⟩
    | some part =>
      obtain ⟨lo, hi, freq, perc, hsample, -⟩ :=
        addBucket_sample numbers preference series out b hslice
      obtain rfl := Except.ok.inj (hsample.symm.trans hadd)
      have hgrown : (out.addSample b.ts (numbers.average part) lo hi freq perc).time.length =
          out.time.length + 1 := List.length_append
      rw [hgrown] at hle hvalues
      refine ⟨by omega, fun heq c hc => ?_⟩
      rcases List.mem_cons.mp hc with rfl | hc
      · exact (slice_eq_some hslice).2.1
      · exact hvalues (by omega) c hc

section Fixed

variable (h : series.time.Pairwise (· < ·)) (hbounds : ∀ x ∈ series.time, 0 ≤ x ∧ x < 2 ^ 63)
  (hvalid : (DownsampleBucketMethod.bucketWidthMs widthMs).Valid)
  (hplan : bucketPlan numbers series.time (.bucketWidthMs widthMs) = .ok (some (w, startIdx, lastIdx)))
include h hbounds hvalid hplan

lemma wellPlaced_of_emits (hemits : EmitsExactly numbers fuel series widthMs preference) :
    WellPlaced series.time series.values.length widthMs := by
  have hle : series.time.Pairwise (· ≤ ·) := h.imp fun hab => Int.le_of_lt hab
  have hnonneg : ∀ x ∈ series.time, 0 ≤ x := fun x hx => (hbounds x hx).1
  have hw : 0 < w := ((bucketPlan_width hle hvalid hplan).resolve_right fun hc => nomatch hc.1.1).1
  obtain ⟨ht, n, -, -, hrange⟩ := bucketPlan_eq_some hplan
  have hlast := bucketRange_le hrange
  obtain ⟨rfl, hfalls⟩ := bucketPlan_fixed hle hnonneg hvalid.1 hplan
  obtain ⟨⟨out, hout, haggregates⟩, hexact⟩ := hemits
  rw [formed_eq hplan] at haggregates hexact
  rw [downsample_eq hplan] at hout
  rcases hbuckets : bucketsFrom series.time (usedWidth series.time widthMs) lastIdx fuel startIdx with
    ⟨buckets, failure⟩
  rw [hbuckets] at hout haggregates hexact
  cases failure with
  | some e => cases hout
  | none =>
    have hchain := chain_of_bucketsFrom hbuckets
    rcases Nat.lt_or_ge startIdx lastIdx with hlt | hge
    · obtain ⟨z, hplaced⟩ := hexact.placed hw hnonneg hle hchain hlt hlast
      refine .inr ⟨startIdx, z, hfalls.aligned_of_placed hw hplaced, ?_⟩
      -- the bucket of the last sample has a value for it
      have hz := hplaced.last.1
      obtain ⟨b, hb, hsamples⟩ := hexact.exists_bucket hw hnonneg hz
      have hinside := ((hsamples z hz.lt).mpr rfl).2
      have hvalues := (length_foldlM_addBucket hout).2 (by
        rw [haggregates.time, List.length_map]
        exact (Nat.zero_add _).symm)
      exact hinside.trans_le (hvalues b hb)
    · cases hchain with
      | done => exact .inl ⟨(exactBuckets_nil hw hnonneg).mp hexact, (hfalls.lastIdx_le_iff ht).mp hge⟩
      | form hlt => exact absurd hge (Nat.not_le.mpr hlt)

lemma emits_of_wellPlaced (hfuel : series.time.length < fuel)
    (hplaced : WellPlaced series.time series.values.length widthMs) :
    EmitsExactly numbers fuel series widthMs preference := by
  have hle : series.time.Pairwise (· ≤ ·) := h.imp fun hab => Int.le_of_lt hab
  have hnonneg : ∀ x ∈ series.time, 0 ≤ x := fun x hx => (hbounds x hx).1
  have hw : 0 < w := ((bucketPlan_width hle hvalid hplan).resolve_right fun hc => nomatch hc.1.1).1
  obtain ⟨ht, n, -, -, hrange⟩ := bucketPlan_eq_some hplan
  have hlast := bucketRange_le hrange
  obtain ⟨rfl, hfalls⟩ := bucketPlan_fixed hle hnonneg hvalid.1 hplan
  obtain ⟨buckets, hbuckets, hexact, hinside⟩ : ∃ buckets,
      bucketsFrom series.time (usedWidth series.time widthMs) lastIdx fuel startIdx = (buckets, none) ∧
      ExactBuckets series.time (usedWidth series.time widthMs) buckets ∧
      ∀ b ∈ buckets, b.startIdx ≤ b.endIdx ∧ b.endIdx ≤ series.values.length := by
    rcases hplaced with ⟨hnone, hroom⟩ | ⟨a, z, haligned, hvalues⟩
    · have hend := (hfalls.lastIdx_le_iff ht).mpr hroom
      refine ⟨[], ?_, (exactBuckets_nil hw hnonneg).mpr hnone, fun _ hb => (nomatch hb)⟩
      exact bucketsFrom_of_chain (.done hend) (fun _ hb => (nomatch hb)) (Nat.zero_lt_of_lt hfuel)
    · have hplaced := hfalls.placed_of_aligned hw hnonneg haligned
      have hz := hplaced.last.1
      have hfit (j : ℕ) (hj : j < lastIdx) : Bucket.new series.time j (usedWidth series.time widthMs) =
          .ok (bucketAt series.time (usedWidth series.time widthMs) j) := by
        -- the bucket ends in a full interval or before it, and so before the last timestamp
        have hstopped := hplaced.stopped
        have hmem : nth series.time j ∈ series.time := nth_mem (hj.trans_le hlast)
        have hround := roundDown_mono hw (hnonneg _ hmem) (nth_le_nth hle (by omega : j ≤ z) hz.lt)
        have hself := hbounds _ hmem
        have hend := (hbounds _ (nth_mem (by omega : series.time.length - 1 < series.time.length))).2
        have hzlast := hz.last
        exact new_eq (hj.trans_le hlast) hw (by omega) (by omega)
      obtain ⟨buckets, hbuckets⟩ :=
        exists_bucketsFrom hle hw hlast (by omega : lastIdx - startIdx < fuel) hfit
      have hchain := chain_of_bucketsFrom hbuckets
      have hexact := hplaced.exactBuckets h hw hnonneg hchain hlast
      refine ⟨buckets, hbuckets, hexact, fun b hb => ?_⟩
      obtain ⟨-, -, -, hgrow⟩ := (hchain.bounds hle hw hlast).2 b hb
      have hend := hexact.endIdx_le hw hnonneg hb hgrow (hchain.endIdx_le hb) hplaced.last.2
      exact ⟨Nat.le_of_lt hgrow, by omega⟩
  obtain ⟨out, hout, haggregates, -⟩ : ∃ out,
      downsample numbers fuel series ⟨.bucketWidthMs widthMs, preference⟩ = .ok out ∧
      Aggregates numbers series buckets out ∧ (EqualColumns series → EqualColumns out) :=
    downsample_of_chain hplan hbuckets hinside
  unfold EmitsExactly
  rw [formed_eq hplan, hbuckets]
  exact ⟨⟨out, hout, haggregates⟩, hexact⟩

end Fixed

end Runs

end SensorLink.Server
