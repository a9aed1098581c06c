import SensorLink.Lib.Tiling
import SensorLink.Server.DownsampleSafety

/-!
# Downsampling to a number of points

The buckets take up the samples of a series one after another. A bucket has the samples up to its end, this
included, so that the first sample of the next one is behind it: for that reason the alignment of the buckets
does not cost a point.
-/

namespace SensorLink.Server

open SensorLink.Lib

/-- The ceiling of a quotient -/
def ceilDiv (a : ℤ) (n : ℕ) : ℤ := -(-a / n)

lemma le_mul_ceilDiv (a : ℤ) {n : ℕ} (hn : 0 < n) : a ≤ n * ceilDiv a n := by
  have hmod := Int.emod_nonneg (-a) (by omega : (n : ℤ) ≠ 0)
  have hdiv := Int.mul_ediv_add_emod (-a) n
  unfold ceilDiv
  rw [Int.mul_neg]
  omega

lemma le_findNextWidth (x : ℤ) :
    x ≤ BucketWidth.findNextWidth x ∨ BucketWidth.findNextWidth x = BucketWidth.largest := by
  unfold BucketWidth.findNextWidth
  cases hfind : BucketWidth.all.find? (x ≤ ·) with
  | none => exact .inr rfl
  | some width =>
    have hfound := List.find?_some hfind
    exact .inl (of_decide_eq_true hfound)

lemma le_roundDown {w low x : ℤ} (hw : 0 < w) (hdvd : w ∣ low) (hx : 0 ≤ x) (hle : low ≤ x) :
    low ≤ roundDown w x := by
  obtain ⟨k, rfl⟩ := hdvd
  have hmul := Int.mul_tdiv_add_tmod x w
  have hquotient : k ≤ x.tdiv w := by
    rw [Int.tdiv_eq_ediv_of_nonneg hx]
    exact Int.le_ediv_of_mul_le hw (by rwa [Int.mul_comm])
  have := Int.mul_le_mul_of_nonneg_left hquotient hw.le
  unfold roundDown
  omega

section Chain

variable {t : List ℤ} {w : ℤ} {i : ℕ} {buckets : List Bucket}

/-- The number of the samples of a bucket -/
def Bucket.count (b : Bucket) : ℕ := b.endIdx - b.startIdx

lemma Chain.tiles (hchain : Chain t w t.length i buckets) (h : t.Pairwise (· ≤ ·)) (hw : 0 < w)
    (hi : i ≤ t.length) : Tiles Bucket.startIdx Bucket.count i buckets t.length := by
  induction hchain with
  | done hle => exact Nat.le_antisymm hi hle
  | @form i buckets hlt _ ih =>
    have hgrow := lt_endIdx h hlt hw
    have hcount : i + (bucketAt t w i).count = (bucketAt t w i).endIdx :=
      Nat.add_sub_cancel' (Nat.le_of_lt hgrow)
    refine ⟨rfl, Nat.sub_pos_of_lt hgrow, ?_⟩
    rw [hcount]
    exact ih endIdx_bucketAt_le

/-- A sample behind a bucket is behind its end. -/
lemma behind_end (h : t.Pairwise (· ≤ ·)) {j : ℕ} (hj : j < t.length) (hend : (bucketAt t w i).endIdx ≤ j) :
    roundDown w (nth t i) + w < nth t j := by
  by_contra hc
  have := (lt_endIdx_iff h hj).mpr (Int.not_lt.mp hc)
  omega

variable (h : t.Pairwise (· ≤ ·)) (hw : 0 < w) (hnonneg : ∀ x ∈ t, 0 ≤ x)
include h hw hnonneg

/-- The timestamp of a bucket is at least a width after that of an earlier one. -/
lemma roundDown_add_le {j : ℕ} (hj : j < t.length) (hend : (bucketAt t w i).endIdx ≤ j) :
    roundDown w (nth t i) + w ≤ roundDown w (nth t j) := by
  refine le_roundDown hw (Int.dvd_add (roundDown_dvd w _) (Int.dvd_refl w)) (hnonneg _ (nth_mem hj)) ?_
  exact (behind_end h hj hend).le

lemma Chain.increasing {lastIdx : ℕ} (hchain : Chain t w lastIdx i buckets) (hlast : lastIdx ≤ t.length) :
    (buckets.map Bucket.ts).Pairwise (· < ·) := by
  induction hchain with
  | done hle => exact .nil
  | @form i buckets hlt hrest ih =>
    rw [List.map_cons]
    refine List.pairwise_cons.mpr ⟨fun ts hts => ?_, ih⟩
    obtain ⟨b, hb, rfl⟩ := List.mem_map.mp hts
    obtain ⟨heq, hle, hbefore, -⟩ := (hrest.bounds h hw hlast).2 b hb
    have hstep := roundDown_add_le h hw hnonneg (hbefore.trans_le hlast) hle
    rw [heq]
    exact (Int.lt_add_of_pos_right _ hw).trans_le hstep

/-- Each bucket but the last one moves the last timestamp on by a width. -/
lemma Chain.span (hchain : Chain t w t.length i buckets) (hmany : 2 ≤ buckets.length) :
    roundDown w (nth t i) + (buckets.length - 1 : ℕ) * w < nth t (t.length - 1) := by
  induction hchain with
  | done hle => exact absurd hmany (by decide)
  | @form i buckets hlt hrest ih =>
    cases hrest with
    | done hle => exact absurd hmany (Nat.not_succ_le_self 1)
    | @form _ rest hlt' hrest' =>
      set j := (bucketAt t w i).endIdx with hj
      have hbehind := behind_end h hlt' hj.symm.le
      have hstep := roundDown_add_le h hw hnonneg hlt' hj.symm.le
      have hlast := nth_le_nth h (by omega : j ≤ t.length - 1) (by omega)
      rw [List.length_cons, Nat.add_sub_cancel]
      cases hrest' with
      | done hle =>
        rw [List.length_singleton, Nat.cast_one, Int.one_mul]
        omega
      | @form _ rest hlt'' hrest'' =>
        have hih := ih (by simp only [List.length_cons]; omega)
        rw [List.length_cons, Nat.add_sub_cancel] at hih
        rw [List.length_cons, Nat.cast_add, Int.add_mul]
        omega

end Chain

/-! ### Points -/

section Points

variable {F : Type} {numbers : Numbers F} {series : MPSensorData F} {m fuel : ℕ}
  {preference : DownsamplePreference}

/-- The result comes from consecutive buckets that together have every sample once. -/
structure Partitions (numbers : Numbers F) (series : MPSensorData F) (m : ℕ) (w : ℤ) (buckets : List Bucket)
    (out : MPSensorData F) : Prop where
  width : calcBucketWidth numbers series.time m = .ok w
  tiles : Tiles Bucket.startIdx Bucket.count 0 buckets series.time.length
  aggregates : Aggregates numbers series buckets out
  increasing : out.time.Pairwise (· < ·)
  aligned : ∀ ts ∈ out.time, w ∣ ts
  inside : ∀ b ∈ buckets, ∀ i, b.startIdx ≤ i → i < b.endIdx →
    b.ts ≤ nth series.time i ∧ nth series.time i ≤ b.ts + w
  columns : EqualColumns out
  few : nth series.time (series.time.length - 1) - nth series.time 0 ≤ (m - 1 : ℕ) * BucketWidth.largest →
    out.time.length ≤ m

/-- The width is long enough for the number of points, as far as the largest one is. -/
lemma timeRange_le {t : List ℤ} {w : ℤ} (hideal : numbers.idealWidth = ceilDiv) (hm : 2 ≤ m)
    (ht : 2 ≤ t.length) (hcalc : calcBucketWidth numbers t m = .ok w)
    (hrange : nth t (t.length - 1) - nth t 0 ≤ (m - 1 : ℕ) * BucketWidth.largest) :
    nth t (t.length - 1) - nth t 0 ≤ (m - 1 : ℕ) * w := by
  obtain ⟨-, minInterval, rfl⟩ := (calcBucketWidth_eq_ok ht hcalc).resolve_left fun hc => by omega
  rcases le_findNextWidth (max (numbers.idealWidth (nth t (t.length - 1) - nth t 0) (m - 1)) minInterval)
    with hle | hlargest
  · have hceil := le_mul_ceilDiv (nth t (t.length - 1) - nth t 0) (by omega : 0 < m - 1)
    rw [← hideal] at hceil
    have hwidth := (le_max_left _ minInterval).trans hle
    exact hceil.trans (Int.mul_le_mul_of_nonneg_left hwidth (Int.natCast_nonneg _))
  · rwa [hlargest]

/-- The plan for a number of points -/
lemma bucketPlan_points {t : List ℤ} (hm : 2 ≤ m) (hmore : m < t.length) {plan : Option (ℤ × ℕ × ℕ)}
    (h : bucketPlan numbers t (.maxPoints m) = .ok plan) : ∃ w, plan = some (w, 0, t.length) ∧
      calcBucketWidth numbers t m = .ok w ∧ w ∈ BucketWidth.all := by
  have ht : t ≠ [] := List.length_pos_iff.mp (by omega)
  unfold bucketPlan at h
  rw [if_neg ht] at h
  obtain ⟨⟨w, n⟩, hwidth, h⟩ := bind_eq_ok h
  obtain ⟨_, hcalc, heq⟩ := bind_eq_ok hwidth
  obtain ⟨rfl, rfl⟩ := Prod.mk.inj (Except.ok.inj heq)
  dsimp only at h
  rw [if_neg (by omega)] at h
  refine ⟨_, (Except.ok.inj h).symm, hcalc, ?_⟩
  obtain ⟨-, minInterval, rfl⟩ := (calcBucketWidth_eq_ok (by omega) hcalc).resolve_left fun hc => by omega
  exact findNextWidth_mem _

/-- What holds of the chain of all buckets -/
lemma partitions_of_chain (hm : 2 ≤ m) (h : series.time.Pairwise (· ≤ ·)) (hnonneg : ∀ x ∈ series.time, 0 ≤ x)
    (hmore : m < series.time.length) (hideal : numbers.idealWidth = ceilDiv) {w : ℤ} {buckets : List Bucket}
    {out : MPSensorData F}
    (hcalc : calcBucketWidth numbers series.time m = .ok w) (hw : 0 < w)
    (hchain : Chain series.time w series.time.length 0 buckets)
    (haggregates : Aggregates numbers series buckets out) (hout : EqualColumns out) :
    Partitions numbers series m w buckets out := by
  have hbounds := (hchain.bounds h hw (Nat.le_refl _)).2
  refine ⟨hcalc, hchain.tiles h hw (Nat.zero_le _), haggregates, ?_, ?_, fun b hb i hi hi' => ?_, hout,
    fun hrange => ?_⟩
  · rw [haggregates.time]
    exact hchain.increasing h hw hnonneg (Nat.le_refl _)
  · intro ts hts
    rw [haggregates.time] at hts
    obtain ⟨b, hb, rfl⟩ := List.mem_map.mp hts
    rw [(hbounds b hb).1]
    exact roundDown_dvd w _
  · obtain ⟨heq, -, hlast, -⟩ := hbounds b hb
    rw [heq] at hi' ⊢
    have hlt : i < series.time.length := Nat.lt_of_lt_of_le hi' endIdx_bucketAt_le
    refine ⟨?_, (lt_endIdx_iff h hlt).mp hi'⟩
    exact ((roundDown_nonneg hw (hnonneg _ (nth_mem hlast))).2).trans (nth_le_nth h hi hlt)
  · -- with more points, the last sample would be too far from the first one
    rw [haggregates.time, List.length_map]
    by_contra hc
    have hfits := timeRange_le hideal hm (by omega) hcalc hrange
    have hspan := hchain.span h hw hnonneg (by omega)
    have hfirst := le_roundDown_add hw (nth series.time 0)
    have hmul : (m : ℤ) * w ≤ (buckets.length - 1 : ℕ) * w :=
      Int.mul_le_mul_of_nonneg_right (by omega) hw.le
    have hm' : (m : ℤ) * w = (m - 1 : ℕ) * w + w := by
      rw [Nat.cast_sub (by omega), Int.sub_mul]
      omega
    omega

/-- The buckets of a result -/
lemma exists_partitions (hm : 2 ≤ m) (h : series.time.Pairwise (· ≤ ·)) (hnonneg : ∀ x ∈ series.time, 0 ≤ x)
    (hcolumns : EqualColumns series) (hmore : m < series.time.length) (hideal : numbers.idealWidth = ceilDiv)
    {out : MPSensorData F} (hout : downsample numbers fuel series ⟨.maxPoints m, preference⟩ = .ok out) :
    ∃ w, Partitions numbers series m w (formed numbers fuel series.time (.maxPoints m)) out := by
  obtain ⟨plan, hplan, -⟩ := bind_eq_ok hout
  obtain ⟨w, rfl, hcalc, hall⟩ := bucketPlan_points hm hmore hplan
  have hw : 0 < w := (mem_all_bounds w hall).1
  rcases hbuckets : bucketsFrom series.time w series.time.length fuel 0 with ⟨buckets, failure⟩
  rw [downsample_eq hplan, hbuckets] at hout
  cases failure with
  | some e => cases hout
  | none =>
    have hchain := chain_of_bucketsFrom hbuckets
    have hinside : ∀ b ∈ buckets, b.startIdx ≤ b.endIdx ∧ b.endIdx ≤ series.values.length := by
      intro b hb
      obtain ⟨-, -, -, hgrow⟩ := (hchain.bounds h hw (Nat.le_refl _)).2 b hb
      rw [hcolumns.values]
      exact ⟨Nat.le_of_lt hgrow, hchain.endIdx_le hb⟩
    obtain ⟨out', hrun, haggregates, hequal⟩ := downsample_of_chain hplan hbuckets hinside
    rw [downsample_eq hplan, hbuckets] at hrun
    obtain rfl := Except.ok.inj (hrun.symm.trans hout)
    rw [formed_eq hplan, hbuckets]
    exact ⟨w, partitions_of_chain hm h hnonneg hmore hideal hcalc hw hchain haggregates (hequal hcolumns)⟩

/-- The buckets of a result partition the samples, and there is a result unless the last timestamps are within
thirty days of the largest `i64`. -/
theorem downsample_partitions (hm : 2 ≤ m) (h : series.time.Pairwise (· ≤ ·))
    (hnonneg : ∀ x ∈ series.time, 0 ≤ x) (hcolumns : EqualColumns series) (hmore : m < series.time.length)
    (hideal : numbers.idealWidth = ceilDiv) (hfuel : series.time.length < fuel) :
    (∀ out, downsample numbers fuel series ⟨.maxPoints m, preference⟩ = .ok out →
      ∃ w, Partitions numbers series m w (formed numbers fuel series.time (.maxPoints m)) out) ∧
    ((∀ x ∈ series.time, x + BucketWidth.largest < 2 ^ 63) →
      ∃ out, downsample numbers fuel series ⟨.maxPoints m, preference⟩ = .ok out) := by
  refine ⟨fun out hout => exists_partitions hm h hnonneg hcolumns hmore hideal hout, fun hlimit => ?_⟩
  have hlargest : (0 : ℤ) < BucketWidth.largest := by decide
  have hfits : Fits series.time := by
    constructor
    · intro x hx
      have hx' := hnonneg x hx
      have hx'' := hlimit x hx
      omega
    · intro x hx y hy
      have hx' := hnonneg x hx
      have hx'' := hlimit x hx
      have hy' := hnonneg y hy
      have hy'' := hlimit y hy
      omega
  have hvalid : DownsampleBucketMethod.Valid (.maxPoints m) := show 1 ≤ m by omega
  obtain ⟨plan, hplan⟩ : ∃ plan, bucketPlan numbers series.time (.maxPoints m) = .ok plan :=
    exists_bucketPlan hfits hvalid
  obtain ⟨w, rfl, -, hall⟩ := bucketPlan_points hm hmore hplan
  obtain ⟨hw, hwidth⟩ := mem_all_bounds w hall
  have hfuel' : series.time.length - 0 < fuel := hfuel
  obtain ⟨buckets, hbuckets⟩ := exists_bucketsFrom h hw (Nat.le_refl _) hfuel' fun j hj => by
    have hself := hfits.self _ (nth_mem hj)
    have hround := roundDown_nonneg hw (hnonneg _ (nth_mem hj))
    have hlarge := hlimit _ (nth_mem hj)
    exact new_eq hj hw hself (by omega)
  rw [downsample_eq hplan, hbuckets]
  exact foldlM_addBucket_ok numbers preference series _ buckets

/-- The second of two samples at one instant does not cost a point. -/
theorem downsample_partitions_repeated : ∃ out w,
    downsample wholeNumbers 4 (plainSeries [1000, 1000, 1900]) ⟨.maxPoints 2, .average⟩ = .ok out ∧
      Partitions wholeNumbers (plainSeries [1000, 1000, 1900]) 2 w
        (formed wholeNumbers 4 [1000, 1000, 1900] (.maxPoints 2)) out := by
  have hcolumns : EqualColumns (plainSeries [1000, 1000, 1900]) :=
    ⟨rfl, rfl, rfl, fun _ hc => (nomatch hc), fun _ hc => (nomatch hc)⟩
  obtain ⟨hpartitions, hresult⟩ := @downsample_partitions ℤ wholeNumbers (plainSeries [1000, 1000, 1900]) 2 4
    .average (by decide) (by decide) (by decide) hcolumns (by decide) rfl (by decide)
  obtain ⟨out, hout⟩ := hresult (by decide)
  obtain ⟨w, hpartition⟩ := hpartitions out hout
  exact ⟨out, w, hout, hpartition⟩

end Points

end SensorLink.Server
