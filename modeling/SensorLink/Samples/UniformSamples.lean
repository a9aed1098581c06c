import Mathlib.Data.Fintype.Basic
import SensorLink.Lib.Slice

/-!
# `UniformSamples` of `samples.rs`

A set of samples of type `α` for each channel, taken at one frequency, and its expansion to samples with
a timestamp each. The sample interval `(1_000_000.0 / fs) as i64` is a parameter.
-/

namespace SensorLink.Samples

open SensorLink.Lib

/-! ### Timestamps -/

/-- An `i64` result of a checked operation -/
def checkedI64 (v : ℤ) : Option Int64 :=
  if -2 ^ 63 ≤ v ∧ v < 2 ^ 63 then some (Int64.ofInt v) else none

/-- `sample_timestamp` -/
def sampleTimestamp (interval : UInt32 → Int64) (t : Int64) (fs : UInt32) (idx : ℕ) :
    Option Int64 := do
  let offset ← checkedI64 ((interval fs).toInt * (Int64.ofNat idx).toInt)
  checkedI64 (offset.toInt + t.toInt)

/-! ### Sets of samples -/

/-- `UniformSamples` -/
structure UniformSamples (α : Type) (nCh max : ℕ) where
  t : Int64
  fs : UInt32
  ch : Fin nCh → HVec α max

namespace UniformSamples

variable {α : Type} {nCh max : ℕ}

/-- `UniformSamples::empty_at` -/
def emptyAt (tStart : Int64) (samplingFrequency : UInt32) : UniformSamples α nCh max :=
  ⟨tStart, samplingFrequency, fun _ => HVec.empty⟩

/-- `UniformSamples::empty` -/
def empty (samplingFrequency : UInt32) : UniformSamples α nCh max := emptyAt 0 samplingFrequency

/-- `UniformSamples::len` -/
def len (samples : UniformSamples α nCh max) : ℕ :=
  if samples.t = 0 then 0
  else (List.finRange nCh).foldl (fun acc i => min acc (samples.ch i).len) max

/-- Without a timestamp the set counts as empty; else its length is that of its channels. -/
lemma len_eq {samples : UniformSamples α nCh max} {n : ℕ} (hch : 0 < nCh) (ht : samples.t ≠ 0)
    (h : ∀ i, (samples.ch i).len = n) : samples.len = n := by
  have hfold : ∀ l : List (Fin nCh), ∀ acc, n ≤ acc →
      l.foldl (fun acc i => min acc (samples.ch i).len) acc = if l = [] then acc else n := by
    intro l
    induction l with
    | nil => simp
    | cons i l ih =>
      intro acc hacc
      rw [List.foldl_cons, h i, Nat.min_eq_right hacc, ih n le_rfl]
      simp
  have hn : n ≤ max := (h ⟨0, hch⟩).symm.trans_le (samples.ch ⟨0, hch⟩).length_le
  rw [len, if_neg ht, hfold _ _ hn, if_neg (by simp [List.finRange_eq_nil_iff, hch.ne'])]

/-- There are samples for the whole length on each channel. -/
lemma len_le (samples : UniformSamples α nCh max) :
    samples.len ≤ max ∧ ∀ i, samples.len ≤ (samples.ch i).len := by
  have hfold : ∀ l : List (Fin nCh), ∀ acc,
      l.foldl (fun acc i => min acc (samples.ch i).len) acc ≤ acc ∧
        ∀ i ∈ l, l.foldl (fun acc i => min acc (samples.ch i).len) acc ≤ (samples.ch i).len := by
    intro l
    induction l with
    | nil => simp
    | cons i l ih =>
      intro acc
      obtain ⟨hacc, hmem⟩ := ih (min acc (samples.ch i).len)
      refine ⟨hacc.trans (min_le_left _ _), fun j hj => ?_⟩
      rcases List.mem_cons.mp hj with rfl | hj
      · exact hacc.trans (min_le_right _ _)
      · exact hmem j hj
  unfold len
  split
  · exact ⟨Nat.zero_le _, fun i => Nat.zero_le _⟩
  · obtain ⟨hmax, hmem⟩ := hfold (List.finRange nCh) max
    exact ⟨hmax, fun i => hmem i (List.mem_finRange i)⟩

end UniformSamples

/-- `NChannelSamples` -/
structure NChannelSamples (α : Type) (nCh : ℕ) where
  t : List Int64
  fs : UInt32
  ch : Fin nCh → List α

instance {α : Type} [DecidableEq α] {nCh : ℕ} : DecidableEq (NChannelSamples α nCh) := fun x y =>
  decidable_of_iff (x.t = y.t ∧ x.fs = y.fs ∧ x.ch = y.ch) (by cases x; cases y; simp)

/-- `NChannelSamples::from` -/
def NChannelSamples.ofUniformSamples {α : Type} {nCh max : ℕ} (interval : UInt32 → Int64)
    (value : UniformSamples α nCh max) : NChannelSamples α nCh where
  t := (List.range value.len).map fun i =>
    (sampleTimestamp interval value.t value.fs i).getD Int64.maxValue
  fs := value.fs
  ch i := (value.ch i).toList

end SensorLink.Samples
