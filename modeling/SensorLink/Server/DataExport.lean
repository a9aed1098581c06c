import SensorLink.Server.SensorData
import Mathlib.Data.List.Sort

/-!
# Data export

`writeDataExport` queries a time range chunk by chunk and writes what it gets as lines of CSV. A line is
the list of its columns; the chunk queries whose results are written are remembered beside the lines.
-/

namespace SensorLink.Server

/-- Times of the program, `DateTime<Utc>`, in nanoseconds since the epoch -/
structure TimeRange where
  fromTime : ℤ
  untilTime : ℤ
deriving DecidableEq, Repr

/-- A `DateTime` of the database has milliseconds. -/
def timestampMillis (time : ℤ) : ℤ := time / 1000000

/-- Hours, minutes and the like of a `TimeDelta`, in nanoseconds -/
def TimeDelta.minutes (n : ℤ) : ℤ := n * 60 * 1000000000

def TimeDelta.hours (n : ℤ) : ℤ := TimeDelta.minutes (n * 60)

def exportChunkDuration : ℤ := TimeDelta.hours 1

def minExportChunkDuration : ℤ := TimeDelta.minutes 1

/-- The length of a chunk is never less than the minimum. -/
structure ChunkDuration where
  nanos : ℤ
  min_le : minExportChunkDuration ≤ nanos

namespace ChunkDuration

def start : ChunkDuration := ⟨exportChunkDuration, by decide⟩

def halve (d : ChunkDuration) : ChunkDuration where
  nanos := max (d.nanos / 2) minExportChunkDuration
  min_le := le_max_right _ _

lemma minExportChunkDuration_pos : 0 < minExportChunkDuration := by decide

lemma nanos_pos (d : ChunkDuration) : 0 < d.nanos :=
  lt_of_lt_of_le minExportChunkDuration_pos d.min_le

lemma halve_lt {d : ChunkDuration} (h : minExportChunkDuration < d.nanos) : d.halve.nanos < d.nanos := by
  have hpos := d.nanos_pos
  refine max_lt ?_ h
  omega

end ChunkDuration

variable {DC F : Type}

/-! ### The stored samples -/

/-- The data sets of a measuring point, and a collection for each channel and resolution. -/
structure SensorStore (DC F : Type) where
  dataSetIdsForMeasuringPoint : String → List String
  collection : DC → TimeResolution → List (SensorData DC F)

/-- What goes to the database -/
inductive StoreCall (DC : Type)
  | openUploadStream
  | query (turn : ℕ) (dataChannel : DC)
  | writeHeader (turn : ℕ)
  | writeRows (turn : ℕ)
  | writeBaseHeader
  | close
  | findFile
  | updateExport
deriving DecidableEq, Repr

inductive DataStoreError
  | tooMuchData
  | databaseReadFailed
  | database
deriving DecidableEq, Repr

/-- The filter of a query on the time of a document. -/
def TimeRange.Contains (range : TimeRange) (inclusiveRange : Bool) (time : ℤ) : Prop :=
  timestampMillis range.fromTime ≤ time ∧
    if inclusiveRange then time ≤ timestampMillis range.untilTime
    else time < timestampMillis range.untilTime

instance (range : TimeRange) (inclusiveRange : Bool) (time : ℤ) :
    Decidable (range.Contains inclusiveRange time) := by
  unfold TimeRange.Contains
  infer_instance

namespace SensorStore

variable (store : SensorStore DC F) (fails : StoreCall DC → Bool)

/-- The documents that a query matches, in the order of their times. -/
def find (dataChannel : DC) (resolution : TimeResolution) (measPointId : String) (range : TimeRange)
    (inclusiveRange : Bool) : List (SensorData DC F) :=
  ((store.collection dataChannel resolution).filter fun doc =>
    doc.metadata.dataSetId ∈ (store.dataSetIdsForMeasuringPoint measPointId).map some ∧
      range.Contains inclusiveRange doc.time).insertionSort (fun a b => a.time ≤ b.time)

/-- The limit of a query that asks for no smaller one -/
def queryLimit (limit : Option ℕ) : ℕ := (limit.map (min 180000)).getD 180000

/-- `sensor_data_for_measuring_point`, for one channel of a chunk. -/
def getSensorData (turn : ℕ) (dataChannel : DC) (resolution : TimeResolution) (measPointId : String)
    (range : TimeRange) (inclusiveRange : Bool) : Except DataStoreError (MPSensorData F) :=
  let docs := store.find dataChannel resolution measPointId range inclusiveRange
  let limit := queryLimit none
  if fails (.query turn dataChannel) then .error .databaseReadFailed
  else if limit < docs.length then .error .tooMuchData
  else .ok (.ofDocs (docs.take limit))

/-- Queries all `dataChannels` for one export chunk. -/
def exportChunk (turn : ℕ) (resolution : TimeResolution) (measPointId : String) (range : TimeRange)
    (inclusiveRange : Bool) : List DC → Except DataStoreError (List (MPSensorData F))
  | [] => .ok []
  | dataChannel :: dataChannels =>
    match store.getSensorData fails turn dataChannel resolution measPointId range inclusiveRange with
    | .error e => .error e
    | .ok data =>
      match exportChunk turn resolution measPointId range inclusiveRange dataChannels with
      | .error e => .error e
      | .ok timeseries => .ok (data :: timeseries)

end SensorStore

open MPSensorDataChannels

/-! ### The export -/

/-- What does not change during an export. -/
structure Export (DC F : Type) where
  store : SensorStore DC F
  format : CsvFormat DC F
  fails : StoreCall DC → Bool
  dataChannels : List DC
  measPointId : String
  timerange : TimeRange
  timeResolution : TimeResolution
  csvHeader : List String

/-- A chunk query whose result is written. -/
structure Chunk (F : Type) where
  range : TimeRange
  inclusiveRange : Bool
  timeseries : List (MPSensorData F)

/-- The file, with the decisions for its header. -/
structure ExportFile (F : Type) where
  headerWritten : Bool
  includeFreq : Bool
  includePerc : Bool
  lines : List (List String)
  chunks : List (Chunk F)

namespace Export

variable (e : Export DC F)

def headerLine (includeFreq includePerc : Bool) : List String :=
  e.csvHeader ++
    (if includeFreq then e.dataChannels.map fun dc => e.format.channel dc ++ "_freq" else []) ++
    if includePerc then e.dataChannels.map fun dc => e.format.channel dc ++ "_perc" else []

/-- The freq/perc columns are decided from the first non-empty batch, and the header is written then. -/
def writeHeader (turn : ℕ) (file : ExportFile F) (timeseries : List (MPSensorData F)) :
    Except DataStoreError (ExportFile F) :=
  if !file.headerWritten && !isEmpty timeseries then
    if e.fails (.writeHeader turn) then .error .database
    else .ok { file with
      headerWritten := true
      includeFreq := hasFreq timeseries
      includePerc := hasPerc timeseries
      lines := file.lines ++ [e.headerLine (hasFreq timeseries) (hasPerc timeseries)] }
  else .ok file

/-- What a chunk query has given is written. -/
def writeChunk (turn : ℕ) (file : ExportFile F) (chunk : Chunk F) : Except DataStoreError (ExportFile F) :=
  match e.writeHeader turn file chunk.timeseries with
  | .error err => .error err
  | .ok file =>
    if e.fails (.writeRows turn) then .error .database
    else .ok { file with
      lines := file.lines ++ asCsv e.format chunk.timeseries file.includeFreq file.includePerc
      chunks := file.chunks ++ [chunk] }

/-- The end of the chunk that starts at `fromTime`. -/
def chunkUntil (fromTime : ℤ) (chunkDuration : ChunkDuration) : ℤ :=
  min (fromTime + chunkDuration.nanos) e.timerange.untilTime

/-- The query of the chunk that starts at `fromTime`. -/
def queryChunk (turn : ℕ) (fromTime : ℤ) (chunkDuration : ChunkDuration) :
    Except DataStoreError (List (MPSensorData F)) :=
  e.store.exportChunk e.fails turn e.timeResolution e.measPointId
    ⟨fromTime, e.chunkUntil fromTime chunkDuration⟩
    (e.chunkUntil fromTime chunkDuration = e.timerange.untilTime) e.dataChannels

/-- The chunk that starts at `fromTime`, with what its query has given. -/
def chunkAt (fromTime : ℤ) (chunkDuration : ChunkDuration) (timeseries : List (MPSensorData F)) :
    Chunk F where
  range := ⟨fromTime, e.chunkUntil fromTime chunkDuration⟩
  inclusiveRange := e.chunkUntil fromTime chunkDuration = e.timerange.untilTime
  timeseries := timeseries

lemma lt_chunkUntil {fromTime : ℤ} (h : fromTime < e.timerange.untilTime) (chunkDuration : ChunkDuration) :
    fromTime < e.chunkUntil fromTime chunkDuration := by
  have hpos := chunkDuration.nanos_pos
  refine lt_min ?_ h
  omega

/-- The loop over the chunks: the range ahead gets shorter, or the chunks do. -/
def writeChunks (turn : ℕ) (fromTime : ℤ) (chunkDuration : ChunkDuration) (file : ExportFile F) :
    Except DataStoreError (ExportFile F) :=
  if _hfrom : fromTime < e.timerange.untilTime then
    match e.queryChunk turn fromTime chunkDuration with
    | .ok timeseries =>
      match e.writeChunk turn file (e.chunkAt fromTime chunkDuration timeseries) with
      | .ok file => writeChunks (turn + 1) (e.chunkUntil fromTime chunkDuration) chunkDuration file
      | .error err => .error err
    | .error .tooMuchData =>
      if hlong : minExportChunkDuration < chunkDuration.nanos then
        writeChunks (turn + 1) fromTime chunkDuration.halve file
      else .error .tooMuchData
    | .error err => .error err
  else .ok file
termination_by ((e.timerange.untilTime - fromTime).toNat, chunkDuration.nanos.toNat)
decreasing_by
  · have hnext := e.lt_chunkUntil _hfrom chunkDuration
    exact .left _ _ (by omega)
  · have hshort := ChunkDuration.halve_lt hlong
    have hpos := chunkDuration.nanos_pos
    exact .right _ (by omega)

/-- No data at all in range: still emit the base header row. -/
def writeBaseHeader (file : ExportFile F) : Except DataStoreError (ExportFile F) :=
  if file.headerWritten then .ok file
  else if e.fails .writeBaseHeader then .error .database
  else .ok { file with lines := file.lines ++ [e.csvHeader] }

def writeDataExport : Except DataStoreError (ExportFile F) :=
  if e.fails .openUploadStream then .error .database
  else
    match e.writeChunks 0 e.timerange.fromTime .start ⟨false, false, false, [], []⟩ with
    | .error err => .error err
    | .ok file =>
      match e.writeBaseHeader file with
      | .error err => .error err
      | .ok file =>
        if e.fails .close || e.fails .findFile || e.fails .updateExport then .error .database
        else .ok file

end Export

end SensorLink.Server
