import SensorLink.Server.Buckets

/-!
# Downsampling does not fail

The width of the buckets is positive unless several samples with one and the same timestamp are to become a
single bucket: then it is the length of their time range, which is zero.
-/

namespace SensorLink.Server

variable {F : Type} {numbers : Numbers F} {t : List ℤ} {w : ℤ}

/-- Options that ask for at least one point, or for a width -/
def DownsampleBucketMethod.Valid : DownsampleBucketMethod → Prop
  | .maxPoints n => 1 ≤ n
  | .bucketWidthMs widthMs => 1 ≤ widthMs ∧ widthMs < 2 ^ 63

/-- Several samples at one instant are to become one point. -/
def SingleInstant (t : List ℤ) (method : DownsampleBucketMethod) : Prop :=
  method = .maxPoints 1 ∧ 2 ≤ t.length ∧ ∀ x ∈ t, x = nth t 0

/-- The buckets that a run forms -/
def formed (numbers : Numbers F) (fuel : ℕ) (t : List ℤ) (method : DownsampleBucketMethod) : List Bucket :=
  match bucketPlan numbers t method with
  | .ok (some (width, startIdx, lastIdx)) => (bucketsFrom t width lastIdx fuel startIdx).1
  | _ => []

/-- The run ends without a division by zero, and without an empty bucket. -/
structure NeverFails (numbers : Numbers F) (fuel : ℕ) (series : MPSensorData F)
    (options : DownsampleOptions) : Prop where
  divides : downsample numbers fuel series options ≠ .error .zero
  terminates : downsample numbers fuel series options ≠ .error .endless
  nonempty : ∀ b ∈ formed numbers fuel series.time options.method, b.startIdx < b.endIdx

/-! ### The width -/

lemma getLastD_eq_nth (t : List ℤ) : t.getLastD 0 = nth t (t.length - 1) := by
  rw [nth, List.getD_eq_getElem?_getD, ← List.getLast?_eq_getElem?, List.getLastD_eq_getLast?]

lemma headD_eq_nth (t : List ℤ) : t.headD 0 = nth t 0 := by
  cases t <;> rfl

lemma findNextWidth_mem (x : ℤ) : BucketWidth.findNextWidth x ∈ BucketWidth.all := by
  unfold BucketWidth.findNextWidth
  cases hfind : BucketWidth.all.find? (x ≤ ·) with
  | none => decide
  | some width => exact List.mem_of_find?_eq_some hfind

lemma mem_all_bounds : ∀ width ∈ BucketWidth.all, 1 ≤ width ∧ width ≤ BucketWidth.largest := by decide

lemma onlyOverflow_intervals (t : List ℤ) : OnlyOverflow (intervals t) := by
  induction t with
  | nil => exact onlyOverflow_ok _
  | cons a rest ih =>
    cases rest with
    | nil => exact onlyOverflow_ok _
    | cons b rest =>
      refine (onlyOverflow_checked _).bind fun _ _ => ?_
      exact ih.bind fun _ _ => onlyOverflow_ok _

lemma onlyOverflow_calcBucketWidth (n : ℕ) : OnlyOverflow (calcBucketWidth numbers t n) := by
  unfold calcBucketWidth
  split_ifs
  · exact onlyOverflow_ok _
  · refine (onlyOverflow_checked _).bind fun _ _ => ?_
    exact onlyOverflow_ok _
  · refine (onlyOverflow_checked _).bind fun _ _ => ?_
    exact onlyOverflow_overflow
  · refine (onlyOverflow_checked _).bind fun _ _ => ?_
    exact (onlyOverflow_intervals t).bind fun _ _ => onlyOverflow_ok _

lemma calcBucketWidth_eq_ok {n : ℕ} (ht : 2 ≤ t.length) (h : calcBucketWidth numbers t n = .ok w) :
    (n = 1 ∧ w = nth t (t.length - 1) - nth t 0 ∧ w < 2 ^ 63) ∨ n ≠ 1 ∧ ∃ minInterval,
      w = BucketWidth.findNextWidth
        (max (numbers.idealWidth (nth t (t.length - 1) - nth t 0) (n - 1)) minInterval) := by
  unfold calcBucketWidth at h
  rw [if_neg (by omega), getLastD_eq_nth, headD_eq_nth] at h
  obtain ⟨timeRange, hrange, h⟩ := bind_eq_ok h
  obtain ⟨rfl, hlt⟩ := checked_eq_ok hrange
  split_ifs at h with hone hzero
  · obtain rfl := Except.ok.inj h
    exact .inl ⟨hone, rfl, hlt⟩
  · obtain ⟨all, -, h⟩ := bind_eq_ok h
    exact .inr ⟨hone, _, (Except.ok.inj h).symm⟩

/-- A series in ascending order has a time range. -/
lemma timeRange_nonneg (h : t.Pairwise (· ≤ ·)) (ht : t ≠ []) : 0 ≤ nth t (t.length - 1) - nth t 0 := by
  have hlen := List.length_pos_iff.mpr ht
  have := nth_le_nth h (Nat.zero_le (t.length - 1)) (by omega)
  omega

/-- The width for buckets of a fixed width, and the number of samples that goes with it -/
lemma bucketWidthMs_fixed {widthMs : ℤ} {n : ℕ} (h : t.Pairwise (· ≤ ·)) (ht : t ≠ []) (hw : 1 ≤ widthMs)
    (hok : bucketWidthMs numbers t (.bucketWidthMs widthMs) = .ok (w, n)) :
    let timeRange := nth t (t.length - 1) - nth t 0
    timeRange < 2 ^ 63 ∧
      (w, n) = if timeRange / widthMs > maxNumSamples then (timeRange / maxNumSamples, maxNumSamples)
        else (widthMs, (timeRange / widthMs).toNat) := by
  have hnonneg := timeRange_nonneg h ht
  unfold bucketWidthMs at hok
  rw [getLastD_eq_nth, headD_eq_nth] at hok
  obtain ⟨timeRange, hrange, hok⟩ := bind_eq_ok hok
  obtain ⟨quotient, hdiv, hok⟩ := bind_eq_ok hok
  obtain ⟨rfl, hlt⟩ := checked_eq_ok hrange
  obtain rfl := div_eq_ok hdiv
  rw [Int.tdiv_eq_ediv_of_nonneg hnonneg] at hok
  have hquotient := Int.ediv_nonneg hnonneg (by omega : 0 ≤ widthMs)
  have hle := Int.ediv_le_self widthMs hnonneg
  have husize : I64.asUsize ((nth t (t.length - 1) - nth t 0) / widthMs) =
      ((nth t (t.length - 1) - nth t 0) / widthMs).toNat := by
    unfold I64.asUsize
    rw [Int.emod_eq_of_lt hquotient (by omega)]
  rw [husize] at hok
  refine ⟨hlt, ?_⟩
  by_cases hmany : (nth t (t.length - 1) - nth t 0) / widthMs > maxNumSamples
  · rw [if_pos (by omega)] at hok
    obtain ⟨adjusted, hadjusted, hok⟩ := bind_eq_ok hok
    obtain rfl := div_eq_ok hadjusted
    rw [Int.tdiv_eq_ediv_of_nonneg hnonneg] at hok
    rw [if_pos hmany]
    exact (Except.ok.inj hok).symm
  · rw [if_neg (by omega)] at hok
    rw [if_neg hmany]
    exact (Except.ok.inj hok).symm

lemma onlyOverflow_bucketWidthMs {method : DownsampleBucketMethod} (hvalid : method.Valid) :
    OnlyOverflow (bucketWidthMs numbers t method) := by
  cases method with
  | maxPoints n => exact (onlyOverflow_calcBucketWidth n).bind fun _ _ => onlyOverflow_ok _
  | bucketWidthMs widthMs =>
    have hpos : 0 < widthMs := hvalid.1
    refine (onlyOverflow_checked _).bind fun _ _ => (onlyOverflow_div _ hpos).bind fun _ _ => ?_
    dsimp only
    split_ifs
    · exact (onlyOverflow_div _ (by decide)).bind fun _ _ => onlyOverflow_ok _
    · exact onlyOverflow_ok _

lemma onlyOverflow_scanModulo {widthMs : ℤ} (hw : 0 < widthMs) (found : ℤ → ℤ → Prop) [DecidableRel found]
    (t : List ℤ) (kept : ℤ) : OnlyOverflow (scanModulo widthMs found t kept) := by
  induction t generalizing kept with
  | nil => exact onlyOverflow_ok _
  | cons x rest ih =>
    refine (onlyOverflow_rem _ hw).bind fun modulo _ => ?_
    split_ifs
    · exact onlyOverflow_ok _
    · exact (ih modulo).bind fun _ _ => onlyOverflow_ok _

lemma onlyOverflow_bucketRange {method : DownsampleBucketMethod} (hvalid : method.Valid) :
    OnlyOverflow (bucketRange t method) := by
  cases method with
  | maxPoints n => exact onlyOverflow_ok _
  | bucketWidthMs widthMs =>
    refine (onlyOverflow_scanModulo hvalid.1 _ t 0).bind fun _ _ => ?_
    exact (onlyOverflow_scanModulo hvalid.1 _ t.reverse _).bind fun _ _ => onlyOverflow_ok _

lemma bucketRange_le {method : DownsampleBucketMethod} {startIdx lastIdx : ℕ}
    (h : bucketRange t method = .ok (startIdx, lastIdx)) : lastIdx ≤ t.length := by
  cases method with
  | maxPoints n =>
    obtain ⟨-, rfl⟩ := Prod.mk.inj (Except.ok.inj h)
    exact Nat.le_refl _
  | bucketWidthMs widthMs =>
    obtain ⟨start, -, h⟩ := bind_eq_ok h
    obtain ⟨last, -, h⟩ := bind_eq_ok h
    obtain ⟨-, rfl⟩ := Prod.mk.inj (Except.ok.inj h)
    cases last with
    | none => exact Nat.sub_le _ _
    | some last =>
      simp only [Option.map_some, Option.getD_some]
      omega

lemma onlyOverflow_bucketPlan {method : DownsampleBucketMethod} (hvalid : method.Valid) :
    OnlyOverflow (bucketPlan numbers t method) := by
  unfold bucketPlan
  split_ifs
  · exact onlyOverflow_ok _
  · refine (onlyOverflow_bucketWidthMs hvalid).bind fun width _ => ?_
    dsimp only
    split_ifs
    · exact onlyOverflow_ok _
    · exact (onlyOverflow_bucketRange hvalid).bind fun _ _ => onlyOverflow_ok _

/-- What a plan consists of -/
lemma bucketPlan_eq_some {method : DownsampleBucketMethod} {startIdx lastIdx : ℕ}
    (h : bucketPlan numbers t method = .ok (some (w, startIdx, lastIdx))) : t ≠ [] ∧ ∃ n,
      bucketWidthMs numbers t method = .ok (w, n) ∧ n < t.length ∧
        bucketRange t method = .ok (startIdx, lastIdx) := by
  unfold bucketPlan at h
  split_ifs at h with ht
  · cases h
  · obtain ⟨⟨width, n⟩, hwidth, h⟩ := bind_eq_ok h
    dsimp only at h
    split_ifs at h with hfew
    · cases h
    · obtain ⟨⟨start, last⟩, hrange, h⟩ := bind_eq_ok h
      obtain ⟨rfl, heq⟩ := Prod.mk.inj (Option.some.inj (Except.ok.inj h))
      obtain ⟨rfl, rfl⟩ := Prod.mk.inj heq
      exact ⟨ht, n, hwidth, by omega, hrange⟩

/-- The buckets of a plan have a positive width, with one exception. -/
lemma bucketPlan_width {method : DownsampleBucketMethod} {startIdx lastIdx : ℕ} (h : t.Pairwise (· ≤ ·))
    (hvalid : method.Valid) (hplan : bucketPlan numbers t method = .ok (some (w, startIdx, lastIdx))) :
    (0 < w ∧ w < 2 ^ 63) ∨ (SingleInstant t method ∧ w = 0) := by
  obtain ⟨ht, n, hwidth, hlt, -⟩ := bucketPlan_eq_some hplan
  have hnonneg := timeRange_nonneg h ht
  cases method with
  | maxPoints m =>
    obtain ⟨width, hcalc, heq⟩ := bind_eq_ok hwidth
    obtain ⟨rfl, rfl⟩ := Prod.mk.inj (Except.ok.inj heq)
    have hm : 1 ≤ m := hvalid
    rcases calcBucketWidth_eq_ok (by omega) hcalc with ⟨rfl, hrange, hsmall⟩ | ⟨-, minInterval, hnext⟩
    · rcases Int.lt_or_eq_of_le (hrange ▸ hnonneg) with hpos | hzero
      · exact .inl ⟨hpos, hsmall⟩
      · refine .inr ⟨⟨rfl, by omega, fun x hx => ?_⟩, hzero.symm⟩
        obtain ⟨i, hi, rfl⟩ := List.mem_iff_getElem.mp hx
        have hfirst := nth_le_nth h (Nat.zero_le i) hi
        have hlast := nth_le_nth h (by omega : i ≤ t.length - 1) (by omega)
        rw [← nth_eq hi]
        omega
    · obtain ⟨hpos, hlargest⟩ := mem_all_bounds width (by rw [hnext]; exact findNextWidth_mem _)
      have hsmall : BucketWidth.largest < 2 ^ 63 := by decide
      exact .inl ⟨by omega, by omega⟩
  | bucketWidthMs widthMs =>
    obtain ⟨hpos, hsmall⟩ : 1 ≤ widthMs ∧ widthMs < 2 ^ 63 := hvalid
    obtain ⟨hrange, heq⟩ := bucketWidthMs_fixed h ht hpos hwidth
    left
    split_ifs at heq with hmany
    · obtain ⟨rfl, rfl⟩ := Prod.mk.inj heq
      have hself := Int.ediv_le_self widthMs hnonneg
      have hmax : (maxNumSamples : ℤ) = 5000 := rfl
      rw [hmax] at hmany ⊢
      omega
    · obtain ⟨rfl, -⟩ := Prod.mk.inj heq
      exact ⟨by omega, hsmall⟩

/-! ### Timestamps that fit -/

/-- The timestamps and their differences fit into an `i64`. -/
structure Fits (t : List ℤ) : Prop where
  self : ∀ x ∈ t, -2 ^ 63 ≤ x ∧ x < 2 ^ 63
  difference : ∀ x ∈ t, ∀ y ∈ t, -2 ^ 63 ≤ y - x ∧ y - x < 2 ^ 63

section Fits

variable (hfits : Fits t)
include hfits

lemma timeRange_fits (ht : t ≠ []) : -2 ^ 63 ≤ nth t (t.length - 1) - nth t 0 ∧
    nth t (t.length - 1) - nth t 0 < 2 ^ 63 := by
  have hlen := List.length_pos_iff.mpr ht
  exact hfits.difference _ (nth_mem hlen) _ (nth_mem (by omega))

lemma timeRange_eq (ht : t ≠ []) : I64.sub (t.getLastD 0) (t.headD 0) =
    .ok (nth t (t.length - 1) - nth t 0) := by
  rw [getLastD_eq_nth, headD_eq_nth]
  exact checked_eq (timeRange_fits hfits ht)

lemma exists_intervals : ∃ all, intervals t = .ok all := by
  induction t with
  | nil => exact ⟨[], rfl⟩
  | cons a rest ih =>
    cases rest with
    | nil => exact ⟨[], rfl⟩
    | cons b rest =>
      obtain ⟨more, hmore⟩ := ih ⟨fun x hx => hfits.self x (List.mem_cons_of_mem _ hx),
        fun x hx y hy => hfits.difference x (List.mem_cons_of_mem _ hx) y (List.mem_cons_of_mem _ hy)⟩
      have hab := hfits.difference a List.mem_cons_self b (List.mem_cons_of_mem _ List.mem_cons_self)
      rw [intervals, I64.sub, checked_eq hab, hmore]
      exact ⟨_, rfl⟩

lemma exists_bucketWidthMs (ht : t ≠ []) {method : DownsampleBucketMethod} (hvalid : method.Valid) :
    ∃ r, bucketWidthMs numbers t method = .ok r := by
  cases method with
  | maxPoints n =>
    obtain ⟨w, hw⟩ : ∃ w, calcBucketWidth numbers t n = .ok w := by
      obtain ⟨all, hall⟩ := exists_intervals hfits
      unfold calcBucketWidth
      rw [timeRange_eq hfits ht, hall]
      have hn : n ≠ 0 := Nat.one_le_iff_ne_zero.mp hvalid
      split_ifs
      · exact ⟨_, rfl⟩
      · exact ⟨_, rfl⟩
      · exact ⟨_, rfl⟩
    rw [bucketWidthMs, hw]
    exact ⟨_, rfl⟩
  | bucketWidthMs widthMs =>
    have hpos : 0 < widthMs := hvalid.1
    rw [bucketWidthMs, timeRange_eq hfits ht]
    dsimp only [bind, Except.bind]
    rw [div_eq (timeRange_fits hfits ht) hpos]
    dsimp only
    split_ifs
    · rw [div_eq (timeRange_fits hfits ht) (by decide)]
      exact ⟨_, rfl⟩
    · exact ⟨_, rfl⟩

lemma exists_scanModulo {widthMs : ℤ} (hw : 0 < widthMs) (found : ℤ → ℤ → Prop) [DecidableRel found]
    (kept : ℤ) : ∃ r, scanModulo widthMs found t kept = .ok r := by
  have hself := hfits.self
  clear hfits
  induction t generalizing kept with
  | nil => exact ⟨none, rfl⟩
  | cons x rest ih =>
    obtain ⟨r, hr⟩ := ih (x.tmod widthMs) fun y hy => hself y (List.mem_cons_of_mem _ hy)
    rw [scanModulo, rem_eq (hself x List.mem_cons_self) hw]
    dsimp only [bind, Except.bind]
    split_ifs
    · exact ⟨_, rfl⟩
    · rw [hr]
      exact ⟨_, rfl⟩

lemma Fits.reverse : Fits t.reverse where
  self x hx := hfits.self x (List.mem_reverse.mp hx)
  difference x hx y hy := hfits.difference x (List.mem_reverse.mp hx) y (List.mem_reverse.mp hy)

lemma exists_bucketRange {method : DownsampleBucketMethod} (hvalid : method.Valid) :
    ∃ r, bucketRange t method = .ok r := by
  cases method with
  | maxPoints n => exact ⟨_, rfl⟩
  | bucketWidthMs widthMs =>
    obtain ⟨start, hstart⟩ := exists_scanModulo hfits hvalid.1 (· < ·) 0
    obtain ⟨last, hlast⟩ := exists_scanModulo hfits.reverse hvalid.1 (· > ·) widthMs
    rw [bucketRange, hstart, hlast]
    exact ⟨_, rfl⟩

lemma exists_bucketPlan {method : DownsampleBucketMethod} (hvalid : method.Valid) :
    ∃ plan, bucketPlan numbers t method = .ok plan := by
  unfold bucketPlan
  split_ifs with ht
  · exact ⟨_, rfl⟩
  · obtain ⟨⟨w, n⟩, hw⟩ : ∃ r, bucketWidthMs numbers t method = .ok r :=
      exists_bucketWidthMs hfits ht hvalid
    obtain ⟨⟨start, last⟩, hrange⟩ := exists_bucketRange hfits hvalid
    rw [hw]
    dsimp only [bind, Except.bind]
    rw [hrange]
    split_ifs
    · exact ⟨_, rfl⟩
    · exact ⟨_, rfl⟩

end Fits

/-! ### Timestamps that are far from the limits -/

/-- The timestamps are less than 2^61 milliseconds from the epoch; those of a calendar are. -/
def Small (t : List ℤ) : Prop := ∀ x ∈ t, -2 ^ 61 < x ∧ x < 2 ^ 61

lemma Small.fits (h : Small t) : Fits t where
  self x hx := by
    have := h x hx
    omega
  difference x hx y hy := by
    have hx' := h x hx
    have hy' := h y hy
    omega

/-- The end of a bucket fits. -/
lemma new_small (hsmall : Small t) {i : ℕ} (hi : i < t.length) (hw : 0 < w) (hlt : w < 2 ^ 63) :
    Bucket.new t i w = .ok (bucketAt t w i) := by
  have hx := hsmall _ (nth_mem hi)
  refine new_eq hi hw (by omega) ?_
  rcases Int.le_total 0 (nth t i) with hpos | hneg
  · have hround := roundDown_nonneg hw hpos
    rcases Int.lt_or_le (2 ^ 62) w with hbig | hle
    · -- the only multiple of so large a width
      have hzero := Int.eq_zero_of_dvd_of_nonneg_of_lt hround.1 (by omega) (roundDown_dvd w (nth t i))
      omega
    · omega
  · have hround := roundDown_nonpos hw hneg
    omega

/-! ### The instant -/

/-- The length of the time range is zero, and so is the width. -/
lemma downsample_singleInstant {series : MPSensorData F} {options : DownsampleOptions} {fuel : ℕ}
    (h : SingleInstant series.time options.method) (hfuel : 0 < fuel) :
    downsample numbers fuel series options = .error .zero := by
  obtain ⟨hmethod, hlen, hsame⟩ := h
  have hlast : nth series.time (series.time.length - 1) = nth series.time 0 := hsame _ (nth_mem (by omega))
  have hcalc : calcBucketWidth numbers series.time 1 = .ok 0 := by
    unfold calcBucketWidth
    rw [if_neg (by omega), getLastD_eq_nth, headD_eq_nth, hlast, I64.sub, Int.sub_self]
    rfl
  have hwidth : bucketWidthMs numbers series.time (.maxPoints 1) = .ok (0, 1) := by
    rw [bucketWidthMs, hcalc]
    rfl
  have hplan : bucketPlan numbers series.time options.method = .ok (some (0, 0, series.time.length)) := by
    have hne : series.time ≠ [] := List.length_pos_iff.mp (by omega)
    rw [hmethod, bucketPlan, if_neg hne, hwidth]
    dsimp only [bind, Except.bind]
    rw [if_neg (by omega)]
    rfl
  obtain ⟨fuel, rfl⟩ : ∃ more, fuel = more + 1 := ⟨fuel - 1, by omega⟩
  have hnew : Bucket.new series.time 0 0 = .error .zero := by
    unfold Bucket.new
    rw [List.getElem?_eq_getElem (by omega : 0 < series.time.length)]
    rfl
  rw [downsample_eq hplan, bucketsFrom, if_pos (by omega), hnew]

/-! ### All other runs -/

section Runs

variable {series : MPSensorData F} {options : DownsampleOptions} {fuel : ℕ}

lemma formed_eq {method : DownsampleBucketMethod} {startIdx lastIdx : ℕ}
    (hplan : bucketPlan numbers t method = .ok (some (w, startIdx, lastIdx))) (fuel : ℕ) :
    formed numbers fuel t method = (bucketsFrom t w lastIdx fuel startIdx).1 := by
  unfold formed
  rw [hplan]

/-- A run ends with a result or by an overflow, and forms no empty bucket. -/
lemma downsample_ends (h : series.time.Pairwise (· ≤ ·)) (hvalid : options.method.Valid)
    (hnot : ¬ SingleInstant series.time options.method) (hfuel : series.time.length < fuel) :
    ((∃ out, downsample numbers fuel series options = .ok out) ∨
      downsample numbers fuel series options = .error .overflow) ∧
    ∀ b ∈ formed numbers fuel series.time options.method, b.startIdx < b.endIdx := by
  unfold formed
  cases hplan : bucketPlan numbers series.time options.method with
  | error e =>
    obtain rfl := onlyOverflow_bucketPlan hvalid e hplan
    refine ⟨.inr ?_, fun _ hb => by cases hb⟩
    unfold downsample
    rw [hplan]
    rfl
  | ok plan =>
    cases plan with
    | none =>
      refine ⟨.inl ⟨series, ?_⟩, fun _ hb => by cases hb⟩
      unfold downsample
      rw [hplan]
      rfl
    | some plan =>
      obtain ⟨w, startIdx, lastIdx⟩ := plan
      obtain ⟨-, n, -, -, hrange⟩ := bucketPlan_eq_some hplan
      have hpos := ((bucketPlan_width h hvalid hplan).resolve_right fun hc => hnot hc.1).1
      have hlast := bucketRange_le hrange
      obtain ⟨hfailure, hnonempty⟩ := bucketsFrom_spec h hpos hlast (by omega : lastIdx - startIdx < fuel)
      refine ⟨?_, hnonempty⟩
      rw [downsample_eq hplan]
      rcases hbuckets : bucketsFrom series.time w lastIdx fuel startIdx with ⟨buckets, failure⟩
      rw [hbuckets] at hfailure
      rcases hfailure with rfl | rfl
      · exact .inl (foldlM_addBucket_ok numbers options.preference series _ buckets)
      · exact .inr rfl

lemma downsample_small (h : series.time.Pairwise (· ≤ ·)) (hvalid : options.method.Valid)
    (hnot : ¬ SingleInstant series.time options.method) (hfuel : series.time.length < fuel)
    (hsmall : Small series.time) : ∃ out, downsample numbers fuel series options = .ok out := by
  obtain ⟨plan, hplan⟩ : ∃ plan, bucketPlan numbers series.time options.method = .ok plan :=
    exists_bucketPlan hsmall.fits hvalid
  cases plan with
  | none =>
    unfold downsample
    rw [hplan]
    exact ⟨series, rfl⟩
  | some plan =>
    obtain ⟨w, startIdx, lastIdx⟩ := plan
    obtain ⟨-, n, -, -, hrange⟩ := bucketPlan_eq_some hplan
    obtain ⟨hpos, hlt⟩ := (bucketPlan_width h hvalid hplan).resolve_right fun hc => hnot hc.1
    have hlast := bucketRange_le hrange
    obtain ⟨buckets, hbuckets⟩ := exists_bucketsFrom h hpos hlast (by omega : lastIdx - startIdx < fuel)
      fun j hj => new_small hsmall (by omega) hpos hlt
    rw [downsample_eq hplan, hbuckets]
    exact foldlM_addBucket_ok numbers options.preference series _ buckets

end Runs

/-- Downsampling fails where several samples at one instant are to become one point, and nowhere else; with
timestamps of a calendar it then has a result. -/
theorem downsample_never_fails_iff {series : MPSensorData F} {options : DownsampleOptions} {fuel : ℕ}
    (h : series.time.Pairwise (· ≤ ·)) (hvalid : options.method.Valid) (hfuel : series.time.length < fuel) :
    (NeverFails numbers fuel series options ↔ ¬ SingleInstant series.time options.method) ∧
      (Small series.time → ((∃ out, downsample numbers fuel series options = .ok out) ↔
        ¬ SingleInstant series.time options.method)) := by
  have hzero (hsingle : SingleInstant series.time options.method) :
      downsample numbers fuel series options = .error .zero := downsample_singleInstant hsingle (by omega)
  refine ⟨⟨fun hnever hsingle => hnever.divides (hzero hsingle), fun hnot => ?_⟩,
    fun hsmall => ⟨?_, fun hnot => downsample_small h hvalid hnot hfuel hsmall⟩⟩
  · obtain ⟨hends, hnonempty⟩ := downsample_ends h hvalid hnot hfuel
    have hother : ∀ e, e ≠ .overflow → downsample numbers fuel series options ≠ .error e := by
      intro e he hc
      rcases hends with ⟨out, hout⟩ | hoverflow
      · rw [hout] at hc
        cases hc
      · rw [hoverflow] at hc
        exact he (Except.error.inj hc).symm
    exact ⟨hother _ (by decide), hother _ (by decide), hnonempty⟩
  · rintro ⟨out, hout⟩ hsingle
    rw [hzero hsingle] at hout
    cases hout

/-- A series in which only the times matter -/
def plainSeries (time : List ℤ) : MPSensorData ℤ := ⟨time, time, time, time, none, none⟩

/-- Whole numbers, with their mean rounded down -/
def wholeNumbers : Numbers ℤ where
  average values := values.sum / values.length
  min := min
  max := max
  partialCmp a b := some (compare a b)
  idealWidth timeRange n := -(-timeRange / n)

theorem downsample_never_fails_repeated :
    NeverFails wholeNumbers 4 (plainSeries [1000, 1000, 1900]) ⟨.maxPoints 2, .average⟩ := by
  have hvalid : DownsampleBucketMethod.Valid (.maxPoints 2) := show 1 ≤ 2 by decide
  have hnot : ¬ SingleInstant [1000, 1000, 1900] (.maxPoints 2) := fun h => by cases h.1
  exact (downsample_never_fails_iff (by decide) hvalid (by decide)).1.mpr hnot

/-- Two samples at one instant cannot become one point: the remainder by a width of zero is taken. -/
theorem downsample_divides_by_zero :
    ¬ NeverFails wholeNumbers 3 (plainSeries [5, 5]) ⟨.maxPoints 1, .average⟩ :=
  fun h => h.divides (downsample_singleInstant ⟨rfl, by decide, by decide⟩ (by decide))

end SensorLink.Server
