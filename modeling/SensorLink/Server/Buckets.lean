import SensorLink.Lib.Ascending
import SensorLink.Server.Timeseries
import Mathlib.Data.List.GetD

/-!
# The buckets of a series

What a bucket is as long as its numbers fit into an `i64`, which buckets the loop forms, and that the result
has one sample for each of them.
-/

namespace SensorLink.Server

open SensorLink.Lib

/-! ### Failures -/

/-- The computation fails only by an overflow, if at all. -/
def OnlyOverflow {α : Type} (r : Except Failure α) : Prop := ∀ e, r = .error e → e = .overflow

section OnlyOverflow

variable {α β : Type}

lemma onlyOverflow_ok (a : α) : OnlyOverflow (.ok a : Except Failure α) := fun _ h => by cases h

lemma onlyOverflow_overflow : OnlyOverflow (.error .overflow : Except Failure α) := by
  rintro _ ⟨rfl⟩
  rfl

lemma OnlyOverflow.bind {r : Except Failure α} {f : α → Except Failure β} (hr : OnlyOverflow r)
    (hf : ∀ a, r = .ok a → OnlyOverflow (f a)) : OnlyOverflow (r >>= f) := by
  cases r with
  | error e =>
    obtain rfl := hr e rfl
    exact onlyOverflow_overflow
  | ok a => exact hf a rfl

lemma bind_eq_ok {r : Except Failure α} {f : α → Except Failure β} {b : β} (h : r >>= f = .ok b) :
    ∃ a, r = .ok a ∧ f a = .ok b := by
  cases r with
  | error e => cases h
  | ok a => exact ⟨a, rfl, h⟩

lemma onlyOverflow_checked (x : ℤ) : OnlyOverflow (I64.checked x) := by
  unfold I64.checked
  split
  · exact onlyOverflow_ok x
  · exact onlyOverflow_overflow

lemma onlyOverflow_div (a : ℤ) {b : ℤ} (hb : 0 < b) : OnlyOverflow (I64.div a b) := by
  unfold I64.div
  rw [if_neg hb.ne']
  exact onlyOverflow_checked _

lemma onlyOverflow_rem (a : ℤ) {b : ℤ} (hb : 0 < b) : OnlyOverflow (I64.rem a b) :=
  (onlyOverflow_div a hb).bind fun _ _ => onlyOverflow_ok _

end OnlyOverflow

lemma checked_eq {x : ℤ} (h : -2 ^ 63 ≤ x ∧ x < 2 ^ 63) : I64.checked x = .ok x := if_pos h

lemma checked_eq_ok {x r : ℤ} (h : I64.checked x = .ok r) : r = x ∧ x < 2 ^ 63 := by
  unfold I64.checked at h
  split_ifs at h with hfit
  · exact ⟨(Except.ok.inj h).symm, hfit.2⟩

lemma div_eq_ok {a b r : ℤ} (h : I64.div a b = .ok r) : r = a.tdiv b := by
  unfold I64.div at h
  split at h
  · cases h
  · exact (checked_eq_ok h).1

lemma rem_eq_ok {a b r : ℤ} (h : I64.rem a b = .ok r) : r = a.tmod b := by
  unfold I64.rem at h
  cases hdiv : I64.div a b with
  | error e =>
    rw [hdiv] at h
    cases h
  | ok q =>
    rw [hdiv] at h
    exact (Except.ok.inj h).symm

/-- A quotient of a number that fits -/
lemma div_eq {a b : ℤ} (ha : -2 ^ 63 ≤ a ∧ a < 2 ^ 63) (hb : 0 < b) : I64.div a b = .ok (a.tdiv b) := by
  have hle := Int.natAbs_tdiv_le_natAbs a b
  have hfit : -2 ^ 63 ≤ a.tdiv b ∧ a.tdiv b < 2 ^ 63 := by
    rcases Int.le_total 0 a with hpos | hneg
    · have hquotient := Int.tdiv_nonneg hpos hb.le
      omega
    · have hquotient := Int.tdiv_nonneg (Int.neg_nonneg_of_nonpos hneg) hb.le
      rw [Int.neg_tdiv] at hquotient
      omega
  unfold I64.div
  rw [if_neg hb.ne', checked_eq hfit]

lemma rem_eq {a b : ℤ} (ha : -2 ^ 63 ≤ a ∧ a < 2 ^ 63) (hb : 0 < b) : I64.rem a b = .ok (a.tmod b) := by
  unfold I64.rem
  rw [div_eq ha hb]
  rfl

/-! ### One bucket -/

def nth (t : List ℤ) (i : ℕ) : ℤ := t.getD i 0

/-- A timestamp rounded towards zero to a multiple of the width -/
def roundDown (w x : ℤ) : ℤ := x - x.tmod w

/-- The bucket of the sample at `i` -/
def bucketAt (t : List ℤ) (w : ℤ) (i : ℕ) : Bucket where
  ts := roundDown w (nth t i)
  startIdx := i
  endIdx := t.findIdx (roundDown w (nth t i) + w < ·)

section Bucket

variable {t : List ℤ} {w : ℤ} {i j : ℕ}

lemma nth_eq (hi : i < t.length) : nth t i = t[i] := List.getD_eq_getElem _ _ hi

lemma nth_mem (hi : i < t.length) : nth t i ∈ t := by
  rw [nth_eq hi]
  exact List.getElem_mem hi

lemma nth_le_nth (h : t.Pairwise (· ≤ ·)) (hij : i ≤ j) (hj : j < t.length) : nth t i ≤ nth t j := by
  rcases Nat.lt_or_eq_of_le hij with hlt | rfl
  · rw [nth_eq hj, nth_eq (hlt.trans hj)]
    exact List.pairwise_iff_getElem.mp h i j _ hj hlt
  · exact le_refl _

lemma roundDown_dvd (w x : ℤ) : w ∣ roundDown w x :=
  ⟨x.tdiv w, by have := Int.mul_tdiv_add_tmod x w; unfold roundDown; omega⟩

/-- The timestamp lies before the end of its bucket. -/
lemma le_roundDown_add (hw : 0 < w) (x : ℤ) : x < roundDown w x + w := by
  have := Int.tmod_lt_of_pos x hw
  unfold roundDown
  omega

lemma roundDown_nonneg (hw : 0 < w) {x : ℤ} (hx : 0 ≤ x) : 0 ≤ roundDown w x ∧ roundDown w x ≤ x := by
  have hmul := Int.mul_tdiv_add_tmod x w
  have hquotient := Int.mul_nonneg hw.le (Int.tdiv_nonneg hx hw.le)
  have hrest := Int.tmod_nonneg w hx
  unfold roundDown
  omega

lemma roundDown_nonpos (hw : 0 < w) {x : ℤ} (hx : x ≤ 0) : x ≤ roundDown w x ∧ roundDown w x ≤ 0 := by
  have hneg := roundDown_nonneg hw (Int.neg_nonneg_of_nonpos hx)
  unfold roundDown at hneg ⊢
  rw [Int.neg_tmod] at hneg
  omega

lemma onlyOverflow_new (hi : i < t.length) (hw : 0 < w) : OnlyOverflow (Bucket.new t i w) := by
  unfold Bucket.new
  rw [List.getElem?_eq_getElem hi]
  refine (onlyOverflow_rem _ hw).bind fun _ _ => (onlyOverflow_checked _).bind fun _ _ => ?_
  exact (onlyOverflow_checked _).bind fun _ _ => onlyOverflow_ok _

/-- A bucket is the one of its sample. -/
lemma new_eq_ok {b : Bucket} (h : Bucket.new t i w = .ok b) : b = bucketAt t w i := by
  unfold Bucket.new at h
  cases hfirst : t[i]? with
  | none =>
    rw [hfirst] at h
    cases h
  | some first =>
    rw [hfirst] at h
    obtain ⟨hi, rfl⟩ := List.getElem?_eq_some_iff.mp hfirst
    obtain ⟨r, hr, h⟩ := bind_eq_ok h
    obtain ⟨start, hstart, h⟩ := bind_eq_ok h
    obtain ⟨stop, hstop, h⟩ := bind_eq_ok h
    obtain rfl := rem_eq_ok hr
    obtain ⟨rfl, -⟩ := checked_eq_ok hstart
    obtain ⟨rfl, -⟩ := checked_eq_ok hstop
    rw [← Except.ok.inj h, bucketAt, nth_eq hi]
    rfl

/-- A bucket whose end fits -/
lemma new_eq (hi : i < t.length) (hw : 0 < w) (hfirst : -2 ^ 63 ≤ nth t i ∧ nth t i < 2 ^ 63)
    (hend : roundDown w (nth t i) + w < 2 ^ 63) : Bucket.new t i w = .ok (bucketAt t w i) := by
  have hstart : -2 ^ 63 ≤ roundDown w (nth t i) := by
    rcases Int.le_total 0 (nth t i) with hpos | hneg
    · have := roundDown_nonneg hw hpos
      omega
    · have := roundDown_nonpos hw hneg
      omega
  unfold roundDown at hend hstart
  rw [nth_eq hi] at hfirst hend hstart
  unfold Bucket.new
  rw [List.getElem?_eq_getElem hi]
  dsimp only
  rw [rem_eq hfirst hw]
  simp only [bind, Except.bind, I64.sub, I64.add]
  rw [checked_eq (by omega)]
  dsimp only
  rw [checked_eq (by omega), bucketAt, nth_eq hi]
  rfl

/-- The samples of a bucket are those up to its end, this included. -/
lemma lt_endIdx_iff (h : t.Pairwise (· ≤ ·)) (hj : j < t.length) :
    j < (bucketAt t w i).endIdx ↔ nth t j ≤ roundDown w (nth t i) + w := by
  rw [nth_eq hj]
  exact lt_findIdx_above_iff h _ hj

/-- A bucket has its first sample. -/
lemma lt_endIdx (h : t.Pairwise (· ≤ ·)) (hi : i < t.length) (hw : 0 < w) :
    i < (bucketAt t w i).endIdx :=
  (lt_endIdx_iff h hi).mpr (le_roundDown_add hw _).le

lemma endIdx_bucketAt_le : (bucketAt t w i).endIdx ≤ t.length := List.findIdx_le_length

end Bucket

/-! ### The buckets of a run -/

/-- The buckets that the loop forms from `startIdx` on, and the failure that it ends with, if any -/
def bucketsFrom (t : List ℤ) (w : ℤ) (lastIdx : ℕ) : ℕ → ℕ → List Bucket × Option Failure
  | 0, _ => ([], some .endless)
  | fuel + 1, startIdx =>
    if startIdx < lastIdx then
      match Bucket.new t startIdx w with
      | .error e => ([], some e)
      | .ok bucket =>
        let (buckets, failure) := bucketsFrom t w lastIdx fuel bucket.endIdx
        (bucket :: buckets, failure)
    else ([], none)

/-- The buckets that follow one another from an index on, whatever their numbers are -/
inductive Chain (t : List ℤ) (w : ℤ) (lastIdx : ℕ) : ℕ → List Bucket → Prop
  | done {i : ℕ} : lastIdx ≤ i → Chain t w lastIdx i []
  | form {i : ℕ} {buckets : List Bucket} : i < lastIdx → Chain t w lastIdx (bucketAt t w i).endIdx buckets →
    Chain t w lastIdx i (bucketAt t w i :: buckets)

section Run

variable {t : List ℤ} {w : ℤ} {lastIdx fuel i : ℕ} {buckets : List Bucket}

lemma chain_of_bucketsFrom (h : bucketsFrom t w lastIdx fuel i = (buckets, none)) :
    Chain t w lastIdx i buckets := by
  induction fuel generalizing i buckets with
  | zero => cases h
  | succ fuel ih =>
    rw [bucketsFrom] at h
    split_ifs at h with hlt
    · cases hnew : Bucket.new t i w with
      | error e =>
        rw [hnew] at h
        cases h
      | ok bucket =>
        obtain rfl := new_eq_ok hnew
        rw [hnew] at h
        obtain ⟨rfl, hnone⟩ := Prod.mk.inj h
        exact .form hlt (ih (Prod.ext rfl hnone))
    · obtain ⟨rfl, -⟩ := Prod.mk.inj h
      exact .done (Nat.not_lt.mp hlt)

/-- The loop forms the buckets of the chain when all of them fit. -/
lemma bucketsFrom_of_chain (h : Chain t w lastIdx i buckets)
    (hfit : ∀ b ∈ buckets, Bucket.new t b.startIdx w = .ok b) (hfuel : buckets.length < fuel) :
    bucketsFrom t w lastIdx fuel i = (buckets, none) := by
  induction h generalizing fuel with
  | done hle =>
    obtain ⟨fuel, rfl⟩ : ∃ more, fuel = more + 1 := ⟨fuel - 1, by omega⟩
    rw [bucketsFrom, if_neg (Nat.not_lt.mpr hle)]
  | @form i buckets hlt _ ih =>
    obtain ⟨fuel, rfl⟩ : ∃ more, fuel = more + 1 := ⟨fuel - 1, by omega⟩
    have hnew : Bucket.new t i w = .ok (bucketAt t w i) := hfit _ List.mem_cons_self
    have hrest := ih (fun b hb => hfit b (List.mem_cons_of_mem _ hb)) (Nat.lt_of_succ_lt_succ hfuel)
    rw [bucketsFrom, if_pos hlt, hnew]
    dsimp only
    rw [hrest]

lemma Chain.endIdx_le (hchain : Chain t w lastIdx i buckets) {b : Bucket} (hb : b ∈ buckets) :
    b.endIdx ≤ t.length := by
  induction hchain with
  | done hle => cases hb
  | form hlt _ ih =>
    rcases List.mem_cons.mp hb with rfl | hb
    · exact endIdx_bucketAt_le
    · exact ih hb

/-- A chain goes forward. -/
lemma Chain.bounds (hchain : Chain t w lastIdx i buckets) (h : t.Pairwise (· ≤ ·)) (hw : 0 < w)
    (hlast : lastIdx ≤ t.length) : buckets.length ≤ lastIdx - i ∧ ∀ b ∈ buckets,
      b = bucketAt t w b.startIdx ∧ i ≤ b.startIdx ∧ b.startIdx < lastIdx ∧ b.startIdx < b.endIdx := by
  induction hchain with
  | done hle => exact ⟨Nat.zero_le _, fun _ hb => by cases hb⟩
  | @form i buckets hlt _ ih =>
    have hgrow := lt_endIdx h (by omega : i < t.length) hw
    refine ⟨?_, fun b hb => ?_⟩
    · rw [List.length_cons]
      omega
    · rcases List.mem_cons.mp hb with rfl | hb
      · exact ⟨rfl, Nat.le_refl i, hlt, hgrow⟩
      · obtain ⟨heq, hle, hrest⟩ := ih.2 b hb
        exact ⟨heq, by omega, hrest⟩

/-- The loop ends, and only an overflow can stop it; no bucket of it is empty. -/
lemma bucketsFrom_spec (h : t.Pairwise (· ≤ ·)) (hw : 0 < w) (hlast : lastIdx ≤ t.length)
    (hfuel : lastIdx - i < fuel) :
    ((bucketsFrom t w lastIdx fuel i).2 = none ∨ (bucketsFrom t w lastIdx fuel i).2 = some .overflow) ∧
      ∀ b ∈ (bucketsFrom t w lastIdx fuel i).1, b.startIdx < b.endIdx := by
  induction fuel generalizing i with
  | zero => omega
  | succ fuel ih =>
    rw [bucketsFrom]
    split_ifs with hlt
    · have hi : i < t.length := by omega
      cases hnew : Bucket.new t i w with
      | error e =>
        obtain rfl := onlyOverflow_new hi hw e hnew
        exact ⟨.inr rfl, fun _ hb => by cases hb⟩
      | ok bucket =>
        obtain rfl := new_eq_ok hnew
        have hgrow := lt_endIdx h hi hw
        obtain ⟨hfailure, hnonempty⟩ := ih (i := (bucketAt t w i).endIdx) (by omega)
        refine ⟨hfailure, fun b hb => ?_⟩
        rcases List.mem_cons.mp hb with rfl | hb
        · exact hgrow
        · exact hnonempty b hb
    · exact ⟨.inl rfl, fun _ hb => by cases hb⟩

/-- Without an overflow the loop ends by itself. -/
lemma exists_bucketsFrom (h : t.Pairwise (· ≤ ·)) (hw : 0 < w) (hlast : lastIdx ≤ t.length)
    (hfuel : lastIdx - i < fuel) (hfit : ∀ j < lastIdx, Bucket.new t j w = .ok (bucketAt t w j)) :
    ∃ buckets, bucketsFrom t w lastIdx fuel i = (buckets, none) := by
  refine ⟨_, Prod.ext rfl ((bucketsFrom_spec h hw hlast hfuel).1.resolve_right ?_)⟩
  clear hfuel
  induction fuel generalizing i with
  | zero => exact fun hc => by cases hc
  | succ fuel ih =>
    rw [bucketsFrom]
    split_ifs with hlt
    · rw [hfit i hlt]
      exact ih
    · exact fun hc => by cases hc

end Run

/-! ### The sample of a bucket -/

section Reductions

variable {α : Type} {P : α → Prop} {l : List α}

/-- A fold whose steps keep a property -/
lemma foldlM_ok {β : Type} {f : β → α → Except Failure β} {Q : β → Prop} {b : β}
    (hstep : ∀ b, Q b → ∀ a ∈ l, ∃ c, f b a = .ok c ∧ Q c) (hb : Q b) : ∃ c, l.foldlM f b = .ok c ∧ Q c := by
  induction l generalizing b with
  | nil => exact ⟨b, rfl, hb⟩
  | cons a l ih =>
    obtain ⟨c, hc, hQ⟩ := hstep b hb a List.mem_cons_self
    obtain ⟨d, hd, hQd⟩ := ih (fun b hb a ha => hstep b hb a (List.mem_cons_of_mem _ ha)) hQ
    refine ⟨d, ?_, hQd⟩
    rw [List.foldlM_cons, hc]
    exact hd

/-- A choice between elements does not leave the list. -/
lemma reduceM_ok {f : α → α → Except Failure α}
    (h : ∀ a ∈ l, ∀ b ∈ l, ∃ c, f a b = .ok c ∧ (c = a ∨ c = b)) :
    ∃ r, reduceM f l = .ok r ∧ (l ≠ [] → r.isSome) ∧ ∀ a ∈ r, a ∈ l := by
  cases l with
  | nil => exact ⟨none, rfl, fun hne => absurd rfl hne, fun _ ha => by cases ha⟩
  | cons a rest =>
    obtain ⟨best, hbest, hmem⟩ : ∃ c, rest.foldlM f a = .ok c ∧ c ∈ a :: rest := by
      refine foldlM_ok (fun x hx y hy => ?_) List.mem_cons_self
      obtain ⟨c, hc, rfl | rfl⟩ := h x hx y (List.mem_cons_of_mem _ hy)
      · exact ⟨c, hc, hx⟩
      · exact ⟨c, hc, List.mem_cons_of_mem _ hy⟩
    refine ⟨some best, ?_, fun _ => rfl, ?_⟩
    · rw [reduceM, hbest]
      rfl
    · rintro _ ⟨rfl⟩
      exact hmem

variable {compare : α → α → Except Failure Ordering} {a b : α}

lemma larger_ok (h : ∃ o, compare a b = .ok o) : ∃ c, larger compare a b = .ok c ∧ (c = a ∨ c = b) := by
  obtain ⟨o, ho⟩ := h
  rw [larger, ho]
  cases o with
  | lt => exact ⟨b, rfl, .inr rfl⟩
  | eq => exact ⟨b, rfl, .inr rfl⟩
  | gt => exact ⟨a, rfl, .inl rfl⟩

lemma smaller_ok (h : ∃ o, compare a b = .ok o) : ∃ c, smaller compare a b = .ok c ∧ (c = a ∨ c = b) := by
  obtain ⟨o, ho⟩ := h
  rw [smaller, ho]
  cases o with
  | lt => exact ⟨a, rfl, .inl rfl⟩
  | eq => exact ⟨a, rfl, .inl rfl⟩
  | gt => exact ⟨b, rfl, .inr rfl⟩

end Reductions

section Sample

variable {F : Type} {numbers : Numbers F} {perc values : List F}

lemma mem_enumerate {p : ℕ × F} (h : p ∈ enumerate perc) : p.1 < perc.length := by
  obtain ⟨i, hi, rfl⟩ := List.mem_mapIdx.mp h
  exact hi

/-- The order is defined where both indices are. -/
lemma comparePercentage_ok {a b : ℕ × F} (ha : a.1 < values.length) (hb : b.1 < values.length) :
    ∃ o, comparePercentage numbers values a b = .ok o := by
  have hordered : ∃ o, (do
      .ok ((numbers.partialCmp (← elementAt values a.1) (← elementAt values b.1)).getD .eq) :
        Except Failure Ordering) = .ok o := by
    unfold elementAt
    rw [List.getElem?_eq_getElem ha, List.getElem?_eq_getElem hb]
    exact ⟨_, rfl⟩
  unfold comparePercentage
  split
  · exact ⟨_, rfl⟩
  · exact ⟨_, rfl⟩
  · exact hordered

lemma compare_enumerate (numbers : Numbers F) (hlen : perc.length = values.length) :
    ∀ a ∈ enumerate perc, ∀ b ∈ enumerate perc, ∃ o, comparePercentage numbers values a b = .ok o :=
  fun _ ha _ hb => comparePercentage_ok (hlen ▸ mem_enumerate ha) (hlen ▸ mem_enumerate hb)

lemma findSampleWithMaxPercentage_ok (hlen : perc.length = values.length) :
    ∃ r, findSampleWithMaxPercentage numbers perc values = .ok r ∧ ∀ a ∈ r, a.1 < perc.length := by
  obtain ⟨r, hr, -, hmem⟩ := reduceM_ok fun a ha b hb =>
    larger_ok (compare_enumerate numbers hlen a ha b hb)
  exact ⟨r, hr, fun a ha => mem_enumerate (hmem a ha)⟩

lemma findSampleWithMinPercentage_ok (hlen : perc.length = values.length) :
    ∃ r, findSampleWithMinPercentage numbers perc values = .ok r := by
  obtain ⟨r, hr, -⟩ := reduceM_ok fun a ha b hb =>
    smaller_ok (compare_enumerate numbers hlen a ha b hb)
  exact ⟨r, hr⟩

lemma sampleOf_ok {find : List F → List F → Except Failure (Option (ℕ × F))} {P : ℕ × F → Prop}
    {perc values : Option (List F)}
    (h : ∀ a ∈ perc, ∀ b ∈ values, ∃ r, find a b = .ok r ∧ ∀ s ∈ r, P s) :
    ∃ r, sampleOf find perc values = .ok r ∧ ∀ s ∈ r, P s := by
  unfold sampleOf
  split
  · next a b => exact h a rfl b rfl
  · exact ⟨none, rfl, fun _ hs => by cases hs⟩

variable {α : Type} {b : Bucket} {column column' part part' : List α}

lemma slice_eq_some (h : b.slice column = some part) : b.startIdx ≤ b.endIdx ∧ b.endIdx ≤ column.length ∧
    part = (column.take b.endIdx).drop b.startIdx := by
  unfold Bucket.slice at h
  obtain ⟨⟨hle, hlen⟩, heq⟩ := Option.ite_none_right_eq_some.mp h
  exact ⟨hle, hlen, (Option.some.inj heq).symm⟩

lemma length_slice (h : b.slice column = some part) : part.length = b.endIdx - b.startIdx := by
  obtain ⟨-, hlen, rfl⟩ := slice_eq_some h
  rw [List.length_drop, List.length_take, Nat.min_eq_left hlen]

end Sample

/-- The columns of a series are equally long. -/
structure EqualColumns {F : Type} (s : MPSensorData F) : Prop where
  values : s.values.length = s.time.length
  min : s.min.length = s.time.length
  max : s.max.length = s.time.length
  freq : ∀ column ∈ s.freq, column.length = s.time.length
  perc : ∀ column ∈ s.perc, column.length = s.time.length

section AddBucket

variable {F : Type} (numbers : Numbers F) (preference : DownsamplePreference) (series out : MPSensorData F)
  (b : Bucket)

lemma addBucket_skip (h : b.slice series.values = none) :
    addBucket numbers preference series out b = .ok out := by
  unfold addBucket
  rw [h]
  rfl

/-- The bucket becomes one sample, with the mean of its values; it has a frequency and a percentage if the
series has these columns. -/
lemma addBucket_sample {part : List F} (h : b.slice series.values = some part) :
    ∃ lo hi freq perc, addBucket numbers preference series out b =
        .ok (out.addSample b.ts (numbers.average part) lo hi freq perc) ∧
      (EqualColumns series → freq.isSome = series.freq.isSome ∧ perc.isSome = series.perc.isSome) := by
  have hlen : ∀ percs ∈ series.perc.bind b.slice, ∀ column : List F, ∀ values ∈ b.slice column,
      percs.length = values.length := by
    intro percs hpercs column values hvalues
    obtain ⟨perc, -, hslice⟩ := Option.bind_eq_some_iff.mp hpercs
    rw [length_slice hslice, length_slice hvalues]
  obtain ⟨maxSample, hmax, hindex⟩ : ∃ r, sampleOf (findSampleWithMaxPercentage numbers)
      (series.perc.bind b.slice) (b.slice series.max) = .ok r ∧ ∀ s ∈ r, s.1 < b.endIdx - b.startIdx := by
    refine sampleOf_ok fun percs hpercs values hvalues => ?_
    rw [← length_slice hvalues, ← hlen percs hpercs _ values hvalues]
    exact findSampleWithMaxPercentage_ok (hlen percs hpercs _ values hvalues)
  obtain ⟨minSample, hmin, -⟩ : ∃ r, sampleOf (findSampleWithMinPercentage numbers)
      (series.perc.bind b.slice) (b.slice series.min) = .ok r ∧ ∀ s ∈ r, True := by
    refine sampleOf_ok fun percs hpercs values hvalues => ?_
    obtain ⟨r, hr⟩ : ∃ r, findSampleWithMinPercentage numbers percs values = .ok r :=
      findSampleWithMinPercentage_ok (hlen percs hpercs _ values hvalues)
    exact ⟨r, hr, fun _ _ => trivial⟩
  obtain ⟨hle, hend, -⟩ := slice_eq_some h
  have hoptional : ∀ column : Option (List F), (∀ c ∈ column, c.length = series.values.length) →
      ((column.bind b.slice).map numbers.average).isSome = column.isSome := by
    intro column hcolumn
    cases column with
    | none => rfl
    | some c =>
      rw [Option.bind_some, Bucket.slice, if_pos ⟨hle, by rw [hcolumn c rfl]; exact hend⟩]
      rfl
  have haverages (hequal : EqualColumns series) :=
    And.intro (hoptional series.freq fun c hc => (hequal.freq c hc).trans hequal.values.symm)
      (hoptional series.perc fun c hc => (hequal.perc c hc).trans hequal.values.symm)
  unfold addBucket
  rw [h]
  dsimp only [Option.map_some]
  rw [hmax]
  dsimp only [bind, Except.bind] at *
  cases preference with
  | average => exact ⟨_, _, _, _, rfl, haverages⟩
  | percentage =>
    cases maxSample with
    | none => exact ⟨_, _, _, _, rfl, haverages⟩
    | some sample =>
      rw [hmin]
      refine ⟨_, _, _, _, rfl, fun hequal => ⟨?_, ?_⟩⟩
      · cases hfreq : series.freq with
        | none => rfl
        | some freq =>
          have hlength := (hequal.freq freq hfreq).trans hequal.values.symm
          have hlt := hindex sample rfl
          rw [Option.bind_some, List.getElem?_eq_getElem (by omega)]
          rfl
      · cases hperc : series.perc with
        | none =>
          rw [hperc] at hmax
          cases hmax
        | some perc => rfl

lemma addBucket_ok : ∃ out', addBucket numbers preference series out b = .ok out' := by
  cases h : b.slice series.values with
  | none => exact ⟨out, addBucket_skip numbers preference series out b h⟩
  | some part =>
    obtain ⟨_, _, _, _, hrun, -⟩ := addBucket_sample numbers preference series out b h
    exact ⟨_, hrun⟩

lemma foldlM_addBucket_ok (buckets : List Bucket) :
    ∃ out', buckets.foldlM (addBucket numbers preference series) out = .ok out' := by
  obtain ⟨out', hout, -⟩ := foldlM_ok (l := buckets) (Q := fun _ => True) (b := out) (fun out _ b _ =>
    (addBucket_ok numbers preference series out b).imp fun _ h => ⟨h, trivial⟩) trivial
  exact ⟨out', hout⟩

/-- The loop adds the buckets that it forms. -/
lemma bucketLoop_eq (w : ℤ) (lastIdx fuel i : ℕ) :
    bucketLoop numbers preference series w lastIdx fuel i out =
      match bucketsFrom series.time w lastIdx fuel i with
      | (buckets, none) => buckets.foldlM (addBucket numbers preference series) out
      | (_, some e) => .error e := by
  induction fuel generalizing i out with
  | zero => rfl
  | succ fuel ih =>
    rw [bucketLoop, bucketsFrom]
    split_ifs with hlt
    · cases hnew : Bucket.new series.time i w with
      | error e => rfl
      | ok bucket =>
        obtain ⟨out', hout⟩ := addBucket_ok numbers preference series out bucket
        dsimp only [bind, Except.bind]
        rw [hout]
        dsimp only
        rw [ih]
        rcases bucketsFrom series.time w lastIdx fuel bucket.endIdx with ⟨buckets, _ | e⟩
        · dsimp only
          rw [List.foldlM_cons, hout]
          rfl
        · rfl
    · rfl

end AddBucket

/-! ### The result -/

section Result

variable {F : Type} {series out : MPSensorData F}

/-- An optional column grows with the others when the sample has it. -/
lemma grown_column {value : Option F} {column : Option (List F)} (h : value.isSome = column.isSome) {n : ℕ}
    (hlen : ∀ c ∈ column, c.length = n) :
    (match value, column with
      | some v, some c => some (c ++ [v])
      | _, column => column).isSome = column.isSome ∧
    ∀ c ∈ (match value, column with
      | some v, some c => some (c ++ [v])
      | _, column => column), c.length = n + 1 := by
  cases value with
  | none =>
    cases column with
    | none => exact ⟨rfl, fun _ hc => by cases hc⟩
    | some c => cases h
  | some v =>
    cases column with
    | none => cases h
    | some c =>
      refine ⟨rfl, ?_⟩
      rintro _ ⟨rfl⟩
      rw [List.length_append, hlen c rfl]
      rfl

lemma EqualColumns.addSample (h : EqualColumns out) (ts : ℤ) (mean lo hi : F) {freq perc : Option F}
    (hfreq : freq.isSome = out.freq.isSome) (hperc : perc.isSome = out.perc.isSome) :
    EqualColumns (out.addSample ts mean lo hi freq perc) ∧
      (out.addSample ts mean lo hi freq perc).freq.isSome = out.freq.isSome ∧
      (out.addSample ts mean lo hi freq perc).perc.isSome = out.perc.isSome := by
  have htime : (out.addSample ts mean lo hi freq perc).time.length = out.time.length + 1 :=
    List.length_append
  obtain ⟨hfreqSome, hfreqs⟩ := grown_column hfreq h.freq
  obtain ⟨hpercSome, hpercs⟩ := grown_column hperc h.perc
  refine ⟨⟨?_, ?_, ?_, ?_, ?_⟩, hfreqSome, hpercSome⟩
  · rw [htime, ← h.values]
    exact List.length_append
  · rw [htime, ← h.min]
    exact List.length_append
  · rw [htime, ← h.max]
    exact List.length_append
  · rw [htime]
    exact hfreqs
  · rw [htime]
    exact hpercs

/-- The samples of a bucket in a column -/
def Bucket.samples {α : Type} (b : Bucket) (column : List α) : List α :=
  (column.take b.endIdx).drop b.startIdx

/-- The result has a sample for each bucket, with the mean of its values. -/
structure Aggregates (numbers : Numbers F) (series : MPSensorData F) (buckets : List Bucket)
    (out : MPSensorData F) : Prop where
  time : out.time = buckets.map Bucket.ts
  values : out.values = buckets.map fun b => numbers.average (b.samples series.values)

/-- What the loop adds, from a series that has samples already -/
lemma foldlM_addBucket (numbers : Numbers F) (preference : DownsamplePreference) {buckets : List Bucket}
    (hinside : ∀ b ∈ buckets, b.startIdx ≤ b.endIdx ∧ b.endIdx ≤ series.values.length)
    (out : MPSensorData F) : ∃ out', buckets.foldlM (addBucket numbers preference series) out = .ok out' ∧
      out'.time = out.time ++ buckets.map Bucket.ts ∧
      out'.values = out.values ++ buckets.map (fun b => numbers.average (b.samples series.values)) ∧
      (EqualColumns series → EqualColumns out → out.freq.isSome = series.freq.isSome →
        out.perc.isSome = series.perc.isSome → EqualColumns out') := by
  induction buckets generalizing out with
  | nil => exact ⟨out, rfl, (List.append_nil _).symm, (List.append_nil _).symm, fun _ h _ _ => h⟩
  | cons b buckets ih =>
    have hpart : b.slice series.values = some (b.samples series.values) :=
      if_pos (hinside b List.mem_cons_self)
    obtain ⟨lo, hi, freq, perc, hadd, hoptional⟩ := addBucket_sample numbers preference series out b hpart
    obtain ⟨out', hrun, htime, hvalues, hequal⟩ := ih (fun b hb => hinside b (List.mem_cons_of_mem _ hb))
      (out.addSample b.ts (numbers.average (b.samples series.values)) lo hi freq perc)
    refine ⟨out', ?_, ?_, ?_, fun hseries hout hfreq hperc => ?_⟩
    · rw [List.foldlM_cons, hadd]
      exact hrun
    · rw [htime, List.map_cons]
      exact List.append_assoc _ _ _
    · rw [hvalues, List.map_cons]
      exact List.append_assoc _ _ _
    · obtain ⟨hfreq', hperc'⟩ := hoptional hseries
      obtain ⟨hadded, haddedFreq, haddedPerc⟩ := hout.addSample b.ts
        (numbers.average (b.samples series.values)) lo hi (hfreq'.trans hfreq.symm) (hperc'.trans hperc.symm)
      exact hequal hseries hadded (haddedFreq.trans hfreq) (haddedPerc.trans hperc)

end Result

/-! ### The whole computation -/

section Downsample

variable {F : Type} {numbers : Numbers F} {series : MPSensorData F} {options : DownsampleOptions}
  {w : ℤ} {startIdx lastIdx fuel : ℕ}

/-- With a plan, the computation is the loop over the buckets. -/
lemma downsample_eq
    (hplan : bucketPlan numbers series.time options.method = .ok (some (w, startIdx, lastIdx))) (fuel : ℕ) :
    downsample numbers fuel series options =
      match bucketsFrom series.time w lastIdx fuel startIdx with
      | (buckets, none) => buckets.foldlM (addBucket numbers options.preference series)
          ⟨[], [], [], [], series.freq.map fun _ => [], series.perc.map fun _ => []⟩
      | (_, some e) => .error e := by
  unfold downsample
  rw [hplan]
  exact bucketLoop_eq numbers options.preference series _ w lastIdx fuel startIdx

/-- The result of a run that forms all of its buckets -/
lemma downsample_of_chain
    (hplan : bucketPlan numbers series.time options.method = .ok (some (w, startIdx, lastIdx)))
    {buckets : List Bucket} (hbuckets : bucketsFrom series.time w lastIdx fuel startIdx = (buckets, none))
    (hinside : ∀ b ∈ buckets, b.startIdx ≤ b.endIdx ∧ b.endIdx ≤ series.values.length) :
    ∃ out, downsample numbers fuel series options = .ok out ∧ Aggregates numbers series buckets out ∧
      (EqualColumns series → EqualColumns out) := by
  obtain ⟨out, hrun, htime, hvalues, hequal⟩ := foldlM_addBucket numbers options.preference hinside
    ⟨[], [], [], [], series.freq.map fun _ => [], series.perc.map fun _ => []⟩
  refine ⟨out, ?_, ⟨htime, hvalues⟩, fun hseries => hequal hseries ⟨rfl, rfl, rfl, ?_, ?_⟩ ?_ ?_⟩
  · rw [downsample_eq hplan, hbuckets]
    exact hrun
  · intro c hc
    obtain ⟨_, -, rfl⟩ := Option.map_eq_some_iff.mp hc
    rfl
  · intro c hc
    obtain ⟨_, -, rfl⟩ := Option.map_eq_some_iff.mp hc
    rfl
  · exact Option.isSome_map
  · exact Option.isSome_map

end Downsample

end SensorLink.Server
