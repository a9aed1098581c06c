import Mathlib.Data.Int.Notation
import Mathlib.Data.List.Induction
import Mathlib.Data.Nat.Notation
import Mathlib.Tactic.Common

/-!
# Sensor data

The documents with sensor data, and what is made of them: columns for each channel, and rows of CSV.
-/

namespace SensorLink.Server

inductive TimeResolution
  | native
  | seconds
  | minutes
  | hours
deriving DecidableEq, Repr

namespace TimeResolution

def finerResolution : TimeResolution → Option TimeResolution
  | native => none
  | seconds => some native
  | minutes => some seconds
  | hours => some minutes

def coarserResolution : TimeResolution → Option TimeResolution
  | native => some seconds
  | seconds => some minutes
  | minutes => some hours
  | hours => none

end TimeResolution

variable {DC F : Type}

structure MetaData (DC : Type) where
  deviceId : Option String
  measuringPointId : Option String
  dataSetId : Option String
  dataChannel : Option DC
deriving DecidableEq, Repr

/-- A document of a collection of sensor data. Its time is in milliseconds since the epoch, and `F` are the
numbers, `f32`. -/
structure SensorData (DC F : Type) where
  metadata : MetaData DC
  time : ℤ
  value : F
  min : Option F
  max : Option F
  perc : Option F
  freq : Option F
deriving DecidableEq, Repr

/-- Sensor data for a measuring point in column format -/
structure MPSensorData (F : Type) where
  time : List ℤ
  values : List F
  min : List F
  max : List F
  freq : Option (List F)
  perc : Option (List F)
deriving DecidableEq, Repr

namespace MPSensorData

def addSample (s : MPSensorData F) (t : ℤ) (v min max : F) (freq perc : Option F) : MPSensorData F where
  time := s.time ++ [t]
  values := s.values ++ [v]
  min := s.min ++ [min]
  max := s.max ++ [max]
  freq := match freq, s.freq with
    | some f, some freqs => some (freqs ++ [f])
    | _, freqs => freqs
  perc := match perc, s.perc with
    | some p, some percs => some (percs ++ [p])
    | _, percs => percs

/-- The columns of the documents that a query has found. -/
def ofDocs (docs : List (SensorData DC F)) : MPSensorData F :=
  docs.foldl (fun s doc => s.addSample doc.time doc.value (doc.min.getD doc.value) (doc.max.getD doc.value)
    doc.freq doc.perc) ⟨[], [], [], [], some [], some []⟩

/-- The columns, by induction on the last document -/
lemma ofDocs_eq (docs : List (SensorData DC F)) : ofDocs docs =
    { time := docs.map SensorData.time
      values := docs.map SensorData.value
      min := docs.map fun doc => doc.min.getD doc.value
      max := docs.map fun doc => doc.max.getD doc.value
      freq := some (docs.filterMap SensorData.freq)
      perc := some (docs.filterMap SensorData.perc) } := by
  induction docs using List.reverseRecOn with
  | nil => rfl
  | append_singleton docs doc ih =>
    unfold ofDocs at ih ⊢
    rw [List.foldl_append, List.foldl_cons, List.foldl_nil, ih]
    unfold addSample
    simp only [List.map_append, List.map_cons, List.map_nil, List.filterMap_append, mk.injEq, true_and]
    constructor
    · cases hfreq : doc.freq <;> simp [hfreq]
    · cases hperc : doc.perc <;> simp [hperc]

end MPSensorData

/-! ### Rows -/

/-- How the values are written, and the numbers that are used to write them. -/
structure CsvFormat (DC F : Type) where
  channel : DC → String
  number : F → String
  nan : F
  mul100 : F → F

namespace MPSensorDataChannels

variable (format : CsvFormat DC F) (data : List (MPSensorData F))

/-- True if no channel has any rows in this batch. -/
def isEmpty : Bool := data.head?.all fun d => d.time.isEmpty

/-- True if any channel actually carries frequency samples. -/
def hasFreq : Bool := data.any fun d => d.freq.any fun f => !f.isEmpty

/-- True if any channel actually carries percentage samples. -/
def hasPerc : Bool := data.any fun d => d.perc.any fun p => !p.isEmpty

/-- The columns of one row, behind the time. -/
def columns (includeFreq includePerc : Bool) (index : ℕ) : List String :=
  (data.map fun d => format.number (d.values[index]?.getD format.nan)) ++
  (if includeFreq then
    data.map fun d => format.number ((d.freq.bind fun f => f[index]?).getD format.nan) else []) ++
  if includePerc then
    data.map fun d => format.number (format.mul100 ((d.perc.bind fun p => p[index]?).getD format.nan))
  else []

/-- Render the batch as CSV rows. -/
def asCsv (includeFreq includePerc : Bool) : List (List String) :=
  match data with
  | [] => []
  | first :: _ => first.time.mapIdx fun index ts =>
    toString ts :: columns format data includeFreq includePerc index

end MPSensorDataChannels

end SensorLink.Server
