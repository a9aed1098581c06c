import SensorLink.Server.SensorData
import Mathlib.Algebra.Order.Ring.Int

/-!
# Downsampling

The samples of a series are collected in buckets, and each bucket becomes one sample. Timestamps are `i64`
milliseconds; the numbers `f32` and the division of `f64` are given by their operations.
-/

namespace SensorLink.Server

/-- How a computation fails: by an overflow or a division by zero, by an index outside of a slice, or because
its loop takes more turns than it is given. -/
inductive Failure
  | overflow
  | zero
  | index
  | endless
deriving DecidableEq, Repr

/-! ### Numbers -/

namespace I64

def checked (x : ℤ) : Except Failure ℤ := if -2 ^ 63 ≤ x ∧ x < 2 ^ 63 then .ok x else .error .overflow

def add (a b : ℤ) : Except Failure ℤ := checked (a + b)

def sub (a b : ℤ) : Except Failure ℤ := checked (a - b)

def div (a b : ℤ) : Except Failure ℤ := if b = 0 then .error .zero else checked (a.tdiv b)

/-- The remainder overflows where the quotient does. -/
def rem (a b : ℤ) : Except Failure ℤ := do
  let _ ← div a b
  .ok (a.tmod b)

/-- `as usize` -/
def asUsize (x : ℤ) : ℕ := (x % 2 ^ 64).toNat

end I64

/-- The operations on `f32` and `f64` that the computation uses -/
structure Numbers (F : Type) where
  /-- The sum of the values, divided by their number -/
  average : List F → F
  min : F → F → F
  max : F → F → F
  partialCmp : F → F → Option Ordering
  /-- The ceiling of the quotient, as an `i64` -/
  idealWidth : ℤ → ℕ → ℤ

/-! ### Options -/

inductive DownsampleBucketMethod
  | maxPoints (n : ℕ)
  | bucketWidthMs (widthMs : ℤ)
deriving DecidableEq, Repr

inductive DownsamplePreference
  | percentage
  | average
deriving DecidableEq, Repr

structure DownsampleOptions where
  method : DownsampleBucketMethod
  preference : DownsamplePreference
deriving DecidableEq, Repr

/-- `MAX_NUM_SAMPLES` -/
def maxNumSamples : ℕ := 5000

/-! ### The width of a bucket -/

namespace BucketWidth

/-- All available bucket widths in milliseconds, from smallest to largest -/
def all : List ℤ :=
  [1, 5, 10, 50, 100, 500, 1000, 5000, 10000, 30000, 60000, 300000, 600000, 900000, 1800000, 3600000,
    10800000, 21600000, 43200000, 86400000, 604800000, 2592000000]

def smallest : ℤ := all.head (by decide)

def largest : ℤ := all.getLast (by decide)

def findNextWidth (widthMs : ℤ) : ℤ := (all.find? (widthMs ≤ ·)).getD largest

end BucketWidth

/-- `windows(2)`, with the difference of the two -/
def intervals : List ℤ → Except Failure (List ℤ)
  | t :: t' :: rest => do
    let interval ← I64.sub t' t
    let more ← intervals (t' :: rest)
    .ok (interval :: more)
  | _ => .ok []

variable {F : Type} (numbers : Numbers F)

def calcBucketWidth (t : List ℤ) (maxNumSamples : ℕ) : Except Failure ℤ :=
  if t.length ≤ 1 then .ok BucketWidth.smallest
  else do
    let timeRange ← I64.sub (t.getLastD 0) (t.headD 0)
    if maxNumSamples = 1 then .ok timeRange
    else if maxNumSamples = 0 then .error .overflow
    else
      let idealWidth := numbers.idealWidth timeRange (maxNumSamples - 1)
      let all ← intervals t
      let minInterval := (all.filter (0 < ·)).min?.getD 1
      .ok (BucketWidth.findNextWidth (max idealWidth minInterval))

/-- The width for the buckets, and the largest number of samples for them -/
def bucketWidthMs (t : List ℤ) : DownsampleBucketMethod → Except Failure (ℤ × ℕ)
  | .maxPoints n => do
    let width ← calcBucketWidth numbers t n
    .ok (width, n)
  | .bucketWidthMs widthMs => do
    let timeRange ← I64.sub (t.getLastD 0) (t.headD 0)
    let numSamples := I64.asUsize (← I64.div timeRange widthMs)
    if numSamples > maxNumSamples then
      let adjustedWidthMs ← I64.div timeRange maxNumSamples
      .ok (adjustedWidthMs, maxNumSamples)
    else .ok (widthMs, numSamples)

/-! ### The first and the last full bucket -/

/-- The index of the first timestamp whose remainder is `found` against the one before; `position` with the
closure that keeps the remainder. -/
def scanModulo (widthMs : ℤ) (found : ℤ → ℤ → Prop) [DecidableRel found] :
    List ℤ → ℤ → Except Failure (Option ℕ)
  | [], _ => .ok none
  | t :: rest, kept => do
    let modulo ← I64.rem t widthMs
    if found modulo kept then .ok (some 0)
    else
      let index ← scanModulo widthMs found rest modulo
      .ok (index.map (· + 1))

/-- `start_idx` and `last_idx` -/
def bucketRange (t : List ℤ) : DownsampleBucketMethod → Except Failure (ℕ × ℕ)
  | .maxPoints _ => .ok (0, t.length)
  | .bucketWidthMs widthMs => do
    let start ← scanModulo widthMs (· < ·) t 0
    let last ← scanModulo widthMs (· > ·) t.reverse widthMs
    .ok (start.getD 0, (last.map (t.length - 1 - ·)).getD (t.length - 1))

/-! ### Buckets -/

structure Bucket where
  ts : ℤ
  startIdx : ℕ
  endIdx : ℕ
deriving DecidableEq, Repr

namespace Bucket

/-- `Bucket::new` -/
def new (t : List ℤ) (startIdx : ℕ) (bucketWidthMs : ℤ) : Except Failure Bucket :=
  match t[startIdx]? with
  | none => .error .index
  | some first => do
    -- Round down time to start of bucket.
    let bucketStartMs ← I64.sub first (← I64.rem first bucketWidthMs)
    let bucketEndMs ← I64.add bucketStartMs bucketWidthMs
    .ok ⟨bucketStartMs, startIdx, t.findIdx (bucketEndMs < ·)⟩

/-- `column.get(bucket.range())` -/
def slice {α : Type} (b : Bucket) (column : List α) : Option (List α) :=
  if b.startIdx ≤ b.endIdx ∧ b.endIdx ≤ column.length then some ((column.take b.endIdx).drop b.startIdx)
  else none

end Bucket

/-! ### The sample of a bucket -/

/-- `Iterator::reduce` -/
def reduce {α : Type} (f : α → α → α) : List α → Option α
  | [] => none
  | a :: rest => some (rest.foldl f a)

/-- `values[i]` -/
def elementAt {α : Type} (values : List α) (i : ℕ) : Except Failure α :=
  match values[i]? with
  | some a => .ok a
  | none => .error .index

/-- The order of two percentages with their indices, in which equal ones are ordered by `values` -/
def comparePercentage (values : List F) (a b : ℕ × F) : Except Failure Ordering :=
  match numbers.partialCmp a.2 b.2 with
  | some .lt => .ok .lt
  | some .gt => .ok .gt
  | _ => do
    .ok ((numbers.partialCmp (← elementAt values a.1) (← elementAt values b.1)).getD .eq)

section

variable {α : Type} (compare : α → α → Except Failure Ordering)

/-- The larger of two, or the second if they are equal -/
def larger (a b : α) : Except Failure α := do
  match ← compare a b with
  | .gt => .ok a
  | _ => .ok b

/-- The smaller of two, or the first if they are equal -/
def smaller (a b : α) : Except Failure α := do
  match ← compare a b with
  | .gt => .ok b
  | _ => .ok a

/-- `reduce`, with a function that may fail -/
def reduceM (f : α → α → Except Failure α) : List α → Except Failure (Option α)
  | [] => .ok none
  | a :: rest => do
    let best ← rest.foldlM f a
    .ok (some best)

def maxBy (values : List α) : Except Failure (Option α) := reduceM (larger compare) values

def minBy (values : List α) : Except Failure (Option α) := reduceM (smaller compare) values

end

/-- `enumerate` -/
def enumerate (perc : List F) : List (ℕ × F) := perc.mapIdx Prod.mk

def findSampleWithMaxPercentage (perc maxValues : List F) : Except Failure (Option (ℕ × F)) :=
  maxBy (comparePercentage numbers maxValues) (enumerate perc)

def findSampleWithMinPercentage (perc minValues : List F) : Except Failure (Option (ℕ × F)) :=
  minBy (comparePercentage numbers minValues) (enumerate perc)

/-- A sample that is looked for where both columns have the bucket -/
def sampleOf (find : List F → List F → Except Failure (Option (ℕ × F))) (perc values : Option (List F)) :
    Except Failure (Option (ℕ × F)) :=
  match perc, values with
  | some perc, some values => find perc values
  | _, _ => .ok none

/-- The body of the loop, for its bucket -/
def addBucket (preference : DownsamplePreference) (series downsampled : MPSensorData F) (bucket : Bucket) :
    Except Failure (MPSensorData F) :=
  match (bucket.slice series.values).map numbers.average with
  | none => .ok downsampled
  | some mean => do
    let min := ((bucket.slice series.min).bind (reduce numbers.min)).getD mean
    let max := ((bucket.slice series.max).bind (reduce numbers.max)).getD mean
    let freq := (series.freq.bind bucket.slice).map numbers.average
    let perc := (series.perc.bind bucket.slice).map numbers.average
    let percBucket := series.perc.bind bucket.slice
    let maxSample ← sampleOf (findSampleWithMaxPercentage numbers) percBucket (bucket.slice series.max)
    match preference, maxSample with
    | .percentage, some (maxIndex, maxPerc) => do
      let minSample ← sampleOf (findSampleWithMinPercentage numbers) percBucket (bucket.slice series.min)
      .ok (downsampled.addSample bucket.ts mean
        ((minSample.bind fun sample => series.min[bucket.startIdx + sample.1]?).getD min)
        (series.max[bucket.startIdx + maxIndex]?.getD max)
        (series.freq.bind fun freq => freq[bucket.startIdx + maxIndex]?) (some maxPerc))
    | _, _ => .ok (downsampled.addSample bucket.ts mean min max freq perc)

/-- The loop over the buckets -/
def bucketLoop (preference : DownsamplePreference) (series : MPSensorData F) (width : ℤ) (lastIdx : ℕ) :
    ℕ → ℕ → MPSensorData F → Except Failure (MPSensorData F)
  | 0, _, _ => .error .endless
  | fuel + 1, startIdx, downsampled => do
    if startIdx < lastIdx then
      let bucket ← Bucket.new series.time startIdx width
      let downsampled ← addBucket numbers preference series downsampled bucket
      bucketLoop preference series width lastIdx fuel bucket.endIdx downsampled
    else .ok downsampled

/-- The width and the range for the buckets, unless the series is to stay as it is -/
def bucketPlan (t : List ℤ) (method : DownsampleBucketMethod) : Except Failure (Option (ℤ × ℕ × ℕ)) := do
  if t = [] then .ok none
  else
    let (width, maxNumSamples) ← bucketWidthMs numbers t method
    if t.length ≤ maxNumSamples then .ok none
    else
      let (startIdx, lastIdx) ← bucketRange t method
      .ok (some (width, startIdx, lastIdx))

/-- `downsample_to_bucket_width_by_percentage_or_average` -/
def downsample (fuel : ℕ) (series : MPSensorData F) (options : DownsampleOptions) :
    Except Failure (MPSensorData F) := do
  match ← bucketPlan numbers series.time options.method with
  | none => .ok series
  | some (width, startIdx, lastIdx) =>
    bucketLoop numbers options.preference series width lastIdx fuel startIdx
      ⟨[], [], [], [], series.freq.map fun _ => [], series.perc.map fun _ => []⟩

end SensorLink.Server
